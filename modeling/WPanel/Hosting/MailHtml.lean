import WPanel.Lib.PrefixCode
import WPanel.Lib.Text
import Mathlib.Data.List.Induction

namespace WPanel.Hosting.MailHtml

open WPanel.Lib

/-!
# The HTML of a message

`hosting/mailhtml.py`: the HTML of a message, reduced to a few harmless tags.

* `Event` — what the parser tells of a message;
* `Cleaner`, `handle`, `sanitizeHtml` — the reduction, whose result is cut to `MAX_HTML`;
* `Piece`, `write`, `nest` — a text of tags and escaped letters, and which of its tags are open;
* `Sanitary` — the text is well nested and harmless, and shows what stands outside the elements
  that are dropped;
* `sanitized_iff` — which messages are reduced to such a text.
-/

def MAX_HTML : ℕ := 60000

def ALLOWED : List String := ["b", "strong", "i", "em", "u", "s", "strike", "br", "p", "div",
  "span", "ul", "ol", "li", "blockquote", "a", "h1", "h2", "h3", "pre", "code", "hr"]

def VOID : List String := ["br", "hr"]

def DROP_WITH_CONTENT : List String := ["script", "style", "iframe", "object", "embed", "template",
  "noscript", "head", "title", "svg", "math", "textarea", "select", "option", "button"]

def SAFE_LINK_SCHEMES : List String := ["http", "https", "mailto"]

/-! ### What is written -/

/-- `"`. -/
def quote : Char := Char.ofNat 34

/-- `'`. -/
def apostrophe : Char := Char.ofNat 39

/-- The characters that `html.escape` replaces. -/
def ENTITIES : List (Char × List Char) := [('&', "&amp;".toList), ('<', "&lt;".toList),
  ('>', "&gt;".toList), (quote, "&quot;".toList), (apostrophe, "&#x27;".toList)]

/-- `html.escape`, of one character. -/
def escapeChar (c : Char) : List Char := (ENTITIES.lookup c).getD [c]

/-- `html.escape`. -/
def escape (s : String) : List Char := s.toList.flatMap escapeChar

/-- A piece of the result: a letter, a tag without attributes, a link, or the end of an element. -/
inductive Piece
  | char (c : Char)
  | tag (name : String)
  | link (href : String)
  | close (name : String)
  deriving DecidableEq, Repr

/-- What stands in a link behind its address. -/
def linkTail : List Char :=
  quote :: " target=".toList ++ quote :: "_blank".toList ++ quote :: " rel=".toList
    ++ quote :: "noopener noreferrer nofollow".toList ++ [quote, '>']

def write : Piece → List Char
  | .char c => escapeChar c
  | .tag name => '<' :: name.toList ++ ['>']
  | .link href => "<a href=".toList ++ quote :: escape href ++ linkTail
  | .close name => "</".toList ++ name.toList ++ ['>']

def written (pieces : List Piece) : List Char := pieces.flatMap write

/-! ### The cleaner -/

/-- What `HTMLParser` calls the cleaner with. -/
inductive Event
  | starttag (tag : String) (attrs : List (String × Option String))
  | startendtag (tag : String) (attrs : List (String × Option String))
  | endtag (tag : String)
  | data (text : String)
  deriving DecidableEq, Repr

def isSchemeChar (c : Char) : Bool := c.isAlphanum || c = '+' || c = '-' || c = '.'

/-- `urlsplit(url).scheme.lower()`, for an address without spaces around it or control
    characters. -/
def urlScheme (url : String) : String :=
  let start := url.toList.takeWhile (· ≠ ':')
  if ':' ∈ url.toList ∧ start.head?.any Char.isAlpha ∧ start.all isSchemeChar then
    String.ofList (start.map Char.toLower)
  else ""

variable (splits : String → Bool)

/-- `_safe_href`; `splits` tells the addresses that `urlsplit` does not raise on. -/
def safeHref (value : Option String) : Option String :=
  let value := strip (value.getD "")
  if value = "" ∨ value.toList.any (fun c => c.toNat < 32) then some ""
  else if splits value then some (if urlScheme value ∈ SAFE_LINK_SCHEMES then value else "")
  else none

/-- `_Cleaner`. -/
structure Cleaner where
  out : List Piece
  /-- The open elements, the innermost first: the tag that was read, and the one that is written. -/
  opened : List (String × String)
  skip : ℕ
  deriving DecidableEq, Repr

def Cleaner.init : Cleaner := ⟨[], [], 0⟩

/-- An element that is opened: it is written as `piece`, and ends with `emitted`. -/
def Cleaner.push (s : Cleaner) (tag emitted : String) (piece : Piece) : Cleaner :=
  { s with out := s.out ++ [piece], opened := (tag, emitted) :: s.opened }

def handleStarttag (s : Cleaner) (tag : String) (attrs : List (String × Option String)) :
    Option Cleaner :=
  if tag ∈ DROP_WITH_CONTENT then some { s with skip := s.skip + 1 }
  else if s.skip ≠ 0 ∨ tag ∉ ALLOWED then some s
  else if tag = "a" then do
    let href ← safeHref splits ((attrs.reverse.lookup "href").getD none)
    return if href ≠ "" then s.push "a" "a" (.link href) else s.push "a" "span" (.tag "span")
  else if tag ∈ VOID then some { s with out := s.out ++ [Piece.tag tag] }
  else some (s.push tag tag (.tag tag))

def handleStartendtag (s : Cleaner) (tag : String) (attrs : List (String × Option String)) :
    Option Cleaner :=
  if tag ∈ DROP_WITH_CONTENT ∨ s.skip ≠ 0 then some s
  else do
    let s ← handleStarttag splits s tag attrs
    match s.opened with
    | (source, emitted) :: rest =>
      return if tag ∈ ALLOWED ∧ tag ∉ VOID ∧ source = tag then
        { s with out := s.out ++ [Piece.close emitted], opened := rest } else s
    | [] => return s

/-- The ends that are written up to the innermost element of this tag, and the elements that stay
    open. -/
def closeUntil (tag : String) : List (String × String) → List Piece × List (String × String)
  | [] => ([], [])
  | (source, emitted) :: rest =>
    if source = tag then ([.close emitted], rest)
    else (.close emitted :: (closeUntil tag rest).1, (closeUntil tag rest).2)

def handleEndtag (s : Cleaner) (tag : String) : Cleaner :=
  if tag ∈ DROP_WITH_CONTENT then { s with skip := s.skip - 1 }
  else if s.skip ≠ 0 ∨ tag ∉ ALLOWED ∨ tag ∈ VOID then s
  else if ∃ e ∈ s.opened, e.1 = tag then
    { s with out := s.out ++ (closeUntil tag s.opened).1, opened := (closeUntil tag s.opened).2 }
  else s

def handleData (s : Cleaner) (text : String) : Cleaner :=
  if s.skip = 0 then { s with out := s.out ++ text.toList.map Piece.char } else s

/-- The cleaner takes an event; it raises where an address cannot be split. -/
def handle (s : Cleaner) : Event → Option Cleaner
  | .starttag tag attrs => handleStarttag splits s tag attrs
  | .startendtag tag attrs => handleStartendtag splits s tag attrs
  | .endtag tag => some (handleEndtag s tag)
  | .data text => some (handleData s text)

/-- `feed`. -/
def feed (events : List Event) : Option Cleaner := events.foldlM (handle splits) Cleaner.init

/-- `close`: the elements that are still open are closed. -/
def Cleaner.close (s : Cleaner) : List Piece := s.out ++ s.opened.map fun e => Piece.close e.2

/-- `sanitize_html`; `parse` is what `HTMLParser` makes of a text. -/
def sanitizeHtml (parse : String → List Event) (raw : String) : String :=
  if raw = "" then ""
  else match feed splits (parse (clip (MAX_HTML * 2) raw)) with
    | some s => String.ofList ((written s.close).take MAX_HTML)
    | none => String.ofList ((escape raw).take MAX_HTML)

example : sanitizeHtml (fun _ => true) (fun _ => [.starttag "div" [], .starttag "i" [],
    .data "open ", .starttag "u" [], .data "tags"]) "<div><i>open <u>tags"
    = "<div><i>open <u>tags</u></i></div>" := by decide +kernel

/-! ### What the result should be -/

/-- Only these pieces may be in the result. -/
def Harmless : Piece → Prop
  | .char _ => True
  | .tag name => name ∈ ALLOWED
  | .link href => urlScheme href ∈ SAFE_LINK_SCHEMES
  | .close name => name ∈ ALLOWED

/-- The elements that are open after some pieces, the innermost first; nothing, where an element
    ends that is not the innermost. -/
def nest : List String → List Piece → Option (List String)
  | opened, [] => some opened
  | opened, .char _ :: rest => nest opened rest
  | opened, .tag name :: rest => nest (if name ∈ VOID then opened else name :: opened) rest
  | opened, .link _ :: rest => nest ("a" :: opened) rest
  | name :: opened, .close name' :: rest => if name = name' then nest opened rest else none
  | [], .close _ :: _ => none

/-- The pieces are well nested, and every element is closed. -/
def Nested (pieces : List Piece) : Prop := nest [] pieces = some []

instance (pieces : List Piece) : Decidable (Nested pieces) :=
  inferInstanceAs (Decidable (nest [] pieces = some []))

/-- The elements that are dropped and have no content: they end where they start. -/
def EMPTY : List String := ["embed"]

/-- The elements to be dropped that an event leaves open, the innermost first. The end of an element
    is the end of those in it. -/
def enter (inside : List String) : Event → List String
  | .starttag tag _ => if tag ∈ DROP_WITH_CONTENT ∧ tag ∉ EMPTY then tag :: inside else inside
  | .endtag tag => if tag ∈ inside then (inside.dropWhile (· ≠ tag)).tail else inside
  | .startendtag .. | .data _ => inside

/-- The elements to be dropped that are open after some events. -/
def inside (events : List Event) : List String := events.foldl enter []

/-- What is written of some events, before anything more is closed. -/
def markup (events : List Event) : List Piece := ((feed splits events).map Cleaner.out).getD []

/-- What is written of a message, before the cut. -/
def cleaned (events : List Event) : List Piece :=
  ((feed splits events).map Cleaner.close).getD []

/-- **The result is made of harmless pieces, well nested and closed, and what it shows of a message
    is every text outside the elements that are dropped: each beginning of such a text that does
    not pass the cut is written, and stands in the result behind what is written of the events
    before it.** -/
structure Sanitary (events : List Event) (html : String) : Prop where
  wellFormed : ∃ pieces, written pieces = html.toList ∧ (∀ p ∈ pieces, Harmless p) ∧ Nested pieces
  shown : ∀ before text after part, events = before ++ Event.data text :: after →
    inside before = [] →
    part <+: text.toList →
    (written (markup splits before ++ part.map Piece.char)).length ≤ MAX_HTML →
      markup splits (before ++ [Event.data (String.ofList part)])
          = markup splits before ++ part.map Piece.char
        ∧ written (markup splits before ++ part.map Piece.char) <+: html.toList

/-- What the message is: the events that the parser tells of its beginning, or the whole of it as
    text, where one of its addresses cannot be split. -/
def message (parse : String → List Event) (raw : String) : List Event :=
  if raw = "" then []
  else if (feed splits (parse (clip (MAX_HTML * 2) raw))).isSome then
    parse (clip (MAX_HTML * 2) raw)
  else [.data raw]

/-! ### Which messages are reduced to that -/

def Event.startsDropped : Event → Bool
  | .starttag tag _ => tag ∈ DROP_WITH_CONTENT
  | _ => false

def Event.endsDropped : Event → Bool
  | .endtag tag => tag ∈ DROP_WITH_CONTENT
  | _ => false

/-- In some stretch of events, up to the last of them, more elements to be dropped start than
    end. -/
def Surplus (events : List Event) : Prop :=
  ∃ stretch, stretch <:+ events ∧
    stretch.countP Event.endsDropped < stretch.countP Event.startsDropped

/-- **The cut takes nothing away or falls where no element is open, and every text outside the
    elements that are dropped, up to the cut, stands where their start and end tags balance.** -/
structure Fits (events : List Event) : Prop where
  closed : (written (cleaned splits events)).length ≤ MAX_HTML ∨
    ∃ pieces, pieces <+: cleaned splits events ∧ Nested pieces
      ∧ (written pieces).length = MAX_HTML
  counted : ∀ before text after c, events = before ++ Event.data text :: after →
    text.toList.head? = some c → inside before = [] →
    (written (markup splits before ++ [Piece.char c])).length ≤ MAX_HTML → ¬Surplus before

section

variable {splits} {s s' : Cleaner} {events before after : List Event} {pieces : List Piece}
  {tag name : String} {attrs : List (String × Option String)} {opened : List String}

/-! ### The reading of what is written -/

/-- A letter is written as itself, or as a word of its own. -/
theorem escapeChar_cases (c : Char) :
    (escapeChar c = [c] ∧ ∀ e ∈ ENTITIES, c ≠ e.1) ∨ (c, escapeChar c) ∈ ENTITIES := by
  unfold escapeChar
  cases hlookup : ENTITIES.lookup c with
  | none =>
    refine .inl ⟨rfl, fun e he => ?_⟩
    simpa using List.lookup_eq_none_iff.mp hlookup e he
  | some word =>
    obtain ⟨front, back, heq, -⟩ := List.lookup_eq_some_iff.mp hlookup
    refine .inr ?_
    rw [heq]
    exact List.mem_append_right _ List.mem_cons_self

/-- The words start with `&`, none of them is the beginning of another, and they have no sign that
    ends a tag or an address. -/
private theorem entities_words : ∀ e ∈ ENTITIES, e.2 = '&' :: e.2.tail
    ∧ e.2.all (fun d => d ≠ '<' && d ≠ '>' && d ≠ quote) = true
    ∧ ∀ e' ∈ ENTITIES, e.2 <+: e'.2 → e.1 = e'.1 := by decide

theorem not_mem_escapeChar {c d : Char} (h : d ∈ escapeChar c) :
    (d ≠ '<' && d ≠ '>' && d ≠ quote) = true := by
  rcases escapeChar_cases c with ⟨heq, hne⟩ | hword
  · rw [heq, List.mem_singleton] at h
    have hlt := hne ('<', "&lt;".toList) (by decide)
    have hgt := hne ('>', "&gt;".toList) (by decide)
    have hquote := hne (quote, "&quot;".toList) (by decide)
    simp [h, hlt, hgt, hquote]
  · exact List.all_eq_true.mp (entities_words _ hword).2.1 d h

theorem prefixCode_escapeChar : PrefixCode (fun _ => True) escapeChar where
  ne_nil c _ := by
    rcases escapeChar_cases c with ⟨heq, -⟩ | hword
    · rw [heq]
      exact List.cons_ne_nil _ _
    · rw [show escapeChar c = _ from (entities_words _ hword).1]
      exact List.cons_ne_nil _ _
  eq_of_prefix c d _ _ h := by
    have hamp : ∀ c, (∀ e ∈ ENTITIES, c ≠ e.1) → c ≠ '&' := fun c hne =>
      hne ('&', "&amp;".toList) (by decide)
    rcases escapeChar_cases c with ⟨hc, hcne⟩ | hc
    · rcases escapeChar_cases d with ⟨hd, -⟩ | hd
      · rw [hc, hd] at h
        exact (List.cons_prefix_cons.mp h).1
      · -- a letter that is written as itself is not the `&` that the other word starts with
        rw [hc, show escapeChar d = _ from (entities_words _ hd).1] at h
        exact absurd (List.cons_prefix_cons.mp h).1 (hamp c hcne)
    · rcases escapeChar_cases d with ⟨hd, hdne⟩ | hd
      · rw [hd, show escapeChar c = _ from (entities_words _ hc).1] at h
        exact absurd (List.cons_prefix_cons.mp h).1.symm (hamp d hdne)
      · exact (entities_words _ hc).2.2 _ hd h

/-- The names of tags have no sign that ends a tag, and do not start with the one of an end. -/
private theorem allowed_names : ∀ name ∈ ALLOWED,
    name.toList.all (fun c => c ≠ '>' && c ≠ ' ') = true ∧ name.toList.head? ≠ some '/' := by
  decide

/-- The sign behind the name of a tag. -/
private def EndsName (c : Char) : Prop := c = '>' ∨ c = ' '

private theorem not_endsName {cs : List Char} (h : cs.all (fun c => c ≠ '>' && c ≠ ' ') = true) :
    ∀ c ∈ cs, ¬EndsName c := by
  intro c hc hends
  have := List.all_eq_true.mp h c hc
  rcases hends with rfl | rfl
  · simp at this
  · simp at this

/-- A tag is its name, and what is behind that. -/
private theorem write_eq_or {piece : Piece} (h : Harmless piece) :
    (∃ c, piece = .char c) ∨ ∃ word sign rest, write piece = '<' :: (word ++ sign :: rest)
      ∧ (∀ c ∈ word, ¬EndsName c) ∧ EndsName sign
      ∧ ((∃ name, piece = .tag name ∧ word = name.toList ∧ sign = '>'
          ∧ name.toList.head? ≠ some '/')
        ∨ (∃ href, piece = .link href ∧ word = "a".toList ∧ sign = ' '
          ∧ rest = "href=".toList ++ quote :: (escape href ++ linkTail))
        ∨ ∃ name, piece = .close name ∧ word = '/' :: name.toList ∧ sign = '>') := by
  cases piece with
  | char c => exact .inl ⟨c, rfl⟩
  | tag name =>
    obtain ⟨hname, hslash⟩ := allowed_names name h
    exact .inr ⟨name.toList, '>', [], rfl, not_endsName hname, .inl rfl,
      .inl ⟨name, rfl, rfl, rfl, hslash⟩⟩
  | link href =>
    exact .inr ⟨"a".toList, ' ', _, rfl, not_endsName (by decide), .inr rfl,
      .inr (.inl ⟨href, rfl, rfl, rfl, rfl⟩)⟩
  | close name =>
    obtain ⟨hname, -⟩ := allowed_names name h
    refine .inr ⟨'/' :: name.toList, '>', [], rfl, not_endsName ?_, .inl rfl,
      .inr (.inr ⟨name, rfl, rfl, rfl⟩)⟩
    rw [List.all_cons, hname]
    decide

/-- **What is written can be read in one way.** -/
theorem prefixCode_write : PrefixCode Harmless write where
  ne_nil piece h := by
    rcases write_eq_or h with ⟨c, rfl⟩ | ⟨word, sign, rest, heq, -⟩
    · exact prefixCode_escapeChar.ne_nil c trivial
    · rw [heq]
      exact List.cons_ne_nil _ _
  eq_of_prefix piece piece' h h' hbegins := by
    have hletter : ∀ c, '<' ∉ escapeChar c := by
      intro c hc
      have := not_mem_escapeChar hc
      simp at this
    rcases write_eq_or h with ⟨c, rfl⟩ | ⟨word, sign, rest, heq, hword, hsign, hpiece⟩
    · rcases write_eq_or h' with ⟨d, rfl⟩ | ⟨word', sign', rest', heq', -⟩
      · rw [prefixCode_escapeChar.eq_of_prefix c d trivial trivial hbegins]
      · -- a letter does not start with the sign of a tag
        obtain ⟨first, tail, hcons⟩ := List.exists_cons_of_ne_nil
          (prefixCode_escapeChar.ne_nil c trivial)
        rw [heq', show write (.char c) = _ from hcons] at hbegins
        obtain ⟨rfl, -⟩ := List.cons_prefix_cons.mp hbegins
        exact absurd (hcons ▸ List.mem_cons_self) (hletter c)
    · rcases write_eq_or h' with ⟨d, rfl⟩ | ⟨word', sign', rest', heq', hword', hsign', hpiece'⟩
      · rw [heq] at hbegins
        exact absurd (hbegins.subset List.mem_cons_self) (hletter d)
      · rw [heq, heq'] at hbegins
        obtain ⟨rfl, rfl, hrest⟩ := eq_of_terminated hword hword' hsign hsign'
          (List.cons_prefix_cons.mp hbegins).2
        rcases hpiece with ⟨name, rfl, rfl, rfl, hslash⟩ | ⟨href, rfl, rfl, rfl, rfl⟩
          | ⟨name, rfl, rfl, rfl⟩
        · rcases hpiece' with ⟨name', rfl, hname, -⟩ | ⟨_, -, -, hsign, -⟩ | ⟨_, -, hname, -⟩
          · rw [String.toList_injective hname]
          · exact absurd hsign (by decide)
          · rw [hname] at hslash
            exact absurd rfl hslash
        · rcases hpiece' with ⟨_, -, -, hsign, -⟩ | ⟨href', rfl, -, -, rfl⟩ | ⟨_, -, hname, -⟩
          · exact absurd hsign (by decide)
          · -- the address ends at the first quote
            have hquote : ∀ href : String, ∀ c ∈ escape href, ¬c = quote := by
              rintro href _ hc rfl
              obtain ⟨d, -, hd⟩ := List.mem_flatMap.mp hc
              have := not_mem_escapeChar hd
              simp at this
            have hrest := (List.prefix_append_right_inj _).mp hrest
            have hhref := (List.cons_prefix_cons.mp hrest).2
            obtain ⟨heq, -⟩ := eq_of_terminated (hquote href) (hquote href') rfl rfl hhref
            have := prefixCode_escapeChar.injective (fun _ _ => trivial) (fun _ _ => trivial) heq
            rw [String.toList_injective this]
          · rw [show "a".toList = ['a'] from rfl] at hname
            exact absurd (List.cons.inj hname).1 (by decide)
        · rcases hpiece' with ⟨name', rfl, hname, -, hslash⟩ | ⟨_, -, -, hsign, -⟩
            | ⟨name', rfl, hname, -⟩
          · rw [← hname] at hslash
            exact absurd rfl hslash
          · exact absurd hsign (by decide)
          · rw [String.toList_injective (List.cons.inj hname).2]

/-! ### The cleaner's invariant -/

theorem nest_append (opened : List String) (pieces more : List Piece) :
    nest opened (pieces ++ more) = (nest opened pieces).bind fun opened => nest opened more := by
  induction pieces generalizing opened with
  | nil => rfl
  | cons piece rest ih =>
    cases piece with
    | char c => exact ih opened
    | tag name => exact ih _
    | link href => exact ih _
    | close name =>
      cases opened with
      | nil => rfl
      | cons first opened =>
        rw [List.cons_append, nest, nest]
        split
        · exact ih opened
        · rfl

theorem nest_chars (opened : List String) (cs : List Char) :
    nest opened (cs.map Piece.char) = some opened := by
  induction cs with
  | nil => rfl
  | cons c cs ih => exact ih

theorem nest_close (name : String) (opened : List String) (rest : List Piece) :
    nest (name :: opened) (.close name :: rest) = nest opened rest := by
  rw [nest, if_pos rfl]

/-- What the cleaner has written is harmless, and its open elements are the ones that are open in
    that. -/
structure Cleaner.Good (s : Cleaner) : Prop where
  harmless : ∀ p ∈ s.out, Harmless p
  nested : nest [] s.out = some (s.opened.map Prod.snd)
  named : ∀ e ∈ s.opened, e.2 ∈ ALLOWED

theorem good_init : Cleaner.init.Good where
  harmless _ h := absurd h List.not_mem_nil
  nested := rfl
  named _ h := absurd h List.not_mem_nil

/-- A good cleaner writes harmless pieces more. -/
theorem Cleaner.Good.write {more : List Piece} {opened : List (String × String)} {skip : ℕ}
    (h : s.Good) (hharmless : ∀ p ∈ more, Harmless p)
    (hnest : nest (s.opened.map Prod.snd) more = some (opened.map Prod.snd))
    (hnamed : ∀ e ∈ opened, e.2 ∈ ALLOWED) : Cleaner.Good ⟨s.out ++ more, opened, skip⟩ where
  harmless := List.forall_mem_append.mpr ⟨h.harmless, hharmless⟩
  nested := by rw [nest_append, h.nested, Option.bind_some, hnest]
  named := hnamed

theorem Cleaner.Good.push {emitted : String} {piece : Piece} (h : s.Good)
    (hharmless : Harmless piece) (hnest : ∀ opened, nest opened [piece] = some (emitted :: opened))
    (hemitted : emitted ∈ ALLOWED) : (s.push tag emitted piece).Good :=
  h.write (List.forall_mem_singleton.mpr hharmless) (hnest _)
    (List.forall_mem_cons.mpr ⟨hemitted, h.named⟩)

theorem safeHref_eq_some {value : Option String} {href : String}
    (h : safeHref splits value = some href) (hne : href ≠ "") :
    urlScheme href ∈ SAFE_LINK_SCHEMES := by
  unfold safeHref at h
  dsimp only at h
  split at h
  · exact absurd (Option.some.inj h).symm hne
  · split at h
    · have h := Option.some.inj h
      split at h
      · next hsafe => exact h ▸ hsafe
      · exact absurd h.symm hne
    · cases h

theorem good_starttag (hs : s.Good) (h : handleStarttag splits s tag attrs = some s') :
    s'.Good := by
  unfold handleStarttag at h
  split at h
  · obtain rfl := Option.some.inj h
    exact ⟨hs.harmless, hs.nested, hs.named⟩
  · split at h
    · exact Option.some.inj h ▸ hs
    · next hallowed =>
      rw [not_or, not_not, not_not] at hallowed
      split at h
      · obtain ⟨href, hhref, h⟩ := Option.bind_eq_some_iff.mp h
        obtain rfl := Option.some.inj h
        split
        · next hne =>
          exact hs.push (safeHref_eq_some hhref hne) (fun _ => rfl) (by decide)
        · exact hs.push (show "span" ∈ ALLOWED by decide) (fun _ => rfl) (by decide)
      · split at h
        · next hvoid =>
          obtain rfl := Option.some.inj h
          refine hs.write (List.forall_mem_singleton.mpr hallowed.2) ?_ hs.named
          rw [nest, if_pos hvoid]
          rfl
        · next hvoid =>
          obtain rfl := Option.some.inj h
          refine hs.push hallowed.2 (fun opened => ?_) hallowed.2
          rw [nest, if_neg hvoid]
          rfl

theorem good_startendtag (hs : s.Good) (h : handleStartendtag splits s tag attrs = some s') :
    s'.Good := by
  unfold handleStartendtag at h
  split at h
  · exact Option.some.inj h ▸ hs
  · obtain ⟨started, hstarted, h⟩ := Option.bind_eq_some_iff.mp h
    have hgood := good_starttag hs hstarted
    split at h
    · next source emitted rest hopened =>
      obtain rfl := Option.some.inj h
      split
      · have hnamed := hgood.named
        rw [hopened, List.forall_mem_cons] at hnamed
        refine hgood.write (List.forall_mem_singleton.mpr hnamed.1) ?_ hnamed.2
        rw [hopened, List.map_cons, nest_close]
        rfl
      · exact hgood
    · exact Option.some.inj h ▸ hgood

/-- The ends that are written are those of open elements, the innermost first. -/
theorem closeUntil_spec (tag : String) (opened : List (String × String)) :
    nest (opened.map Prod.snd) (closeUntil tag opened).1
        = some ((closeUntil tag opened).2.map Prod.snd)
      ∧ (∀ p ∈ (closeUntil tag opened).1, ∃ e ∈ opened, p = .close e.2)
      ∧ (closeUntil tag opened).2 ⊆ opened := by
  induction opened with
  | nil => exact ⟨rfl, fun p hp => absurd hp List.not_mem_nil, List.Subset.refl _⟩
  | cons e rest ih =>
    obtain ⟨source, emitted⟩ := e
    rw [closeUntil]
    split
    · refine ⟨?_, ?_, List.subset_cons_self _ _⟩
      · rw [List.map_cons, nest_close]
        rfl
      · exact List.forall_mem_singleton.mpr ⟨_, List.mem_cons_self, rfl⟩
    · refine ⟨?_, ?_, List.subset_cons_of_subset _ ih.2.2⟩
      · rw [List.map_cons, nest_close]
        exact ih.1
      · refine List.forall_mem_cons.mpr ⟨⟨_, List.mem_cons_self, rfl⟩, fun p hp => ?_⟩
        obtain ⟨e, he, rfl⟩ := ih.2.1 p hp
        exact ⟨e, List.mem_cons_of_mem _ he, rfl⟩

theorem good_endtag (hs : s.Good) (tag : String) : (handleEndtag s tag).Good := by
  unfold handleEndtag
  split
  · exact ⟨hs.harmless, hs.nested, hs.named⟩
  · split
    · exact hs
    · split
      · obtain ⟨hnest, hclose, hsub⟩ := closeUntil_spec tag s.opened
        refine hs.write (fun p hp => ?_) hnest fun e he => hs.named e (hsub he)
        obtain ⟨e, he, rfl⟩ := hclose p hp
        exact hs.named e he
      · exact hs

theorem good_data (hs : s.Good) (text : String) : (handleData s text).Good := by
  unfold handleData
  split
  · refine hs.write (fun p hp => ?_) (nest_chars _ _) hs.named
    obtain ⟨c, -, rfl⟩ := List.mem_map.mp hp
    trivial
  · exact hs

theorem good_handle {event : Event} (hs : s.Good) (h : handle splits s event = some s') :
    s'.Good := by
  cases event with
  | starttag tag attrs => exact good_starttag hs h
  | startendtag tag attrs => exact good_startendtag hs h
  | endtag tag => exact Option.some.inj h ▸ good_endtag hs tag
  | data text => exact Option.some.inj h ▸ good_data hs text

/-! ### Messages -/

/-- What every event keeps holds when the message has been fed. -/
theorem feed_invariant {I : Cleaner → Prop} (hinit : I Cleaner.init)
    (hstep : ∀ s event s', I s → handle splits s event = some s' → I s')
    (h : feed splits events = some s) : I s := by
  have hrun : ∀ (events : List Event) s, I s →
      ∀ s', events.foldlM (handle splits) s = some s' → I s' := by
    intro events
    induction events with
    | nil => exact fun s hs s' h => Option.some.inj h ▸ hs
    | cons event rest ih =>
      intro s hs s' h
      obtain ⟨next, hnext, h⟩ := Option.bind_eq_some_iff.mp (List.foldlM_cons.symm.trans h)
      exact ih next (hstep s event next hs hnext) s' h
  exact hrun events _ hinit s h

theorem feed_append (before after : List Event) :
    feed splits (before ++ after) = (feed splits before).bind fun s =>
      after.foldlM (handle splits) s :=
  List.foldlM_append

theorem good_feed (h : feed splits events = some s) : s.Good :=
  feed_invariant good_init (fun _ _ _ hs hnext => good_handle hs hnext) h

/-- What is written stays. -/
theorem out_handle {event : Event} (h : handle splits s event = some s') : s.out <+: s'.out := by
  have hstart : ∀ {s s' : Cleaner} {tag attrs}, handleStarttag splits s tag attrs = some s' →
      s.out <+: s'.out := by
    intro s s' tag attrs h
    unfold handleStarttag at h
    split at h
    · exact Option.some.inj h ▸ List.prefix_rfl
    · split at h
      · exact Option.some.inj h ▸ List.prefix_rfl
      · split at h
        · obtain ⟨href, -, h⟩ := Option.bind_eq_some_iff.mp h
          obtain rfl := Option.some.inj h
          split
          · exact List.prefix_append _ _
          · exact List.prefix_append _ _
        · split at h
          · exact Option.some.inj h ▸ List.prefix_append _ _
          · exact Option.some.inj h ▸ List.prefix_append _ _
  cases event with
  | starttag tag attrs => exact hstart h
  | startendtag tag attrs =>
    unfold handle handleStartendtag at h
    dsimp only at h
    split at h
    · exact Option.some.inj h ▸ List.prefix_rfl
    · obtain ⟨started, hstarted, h⟩ := Option.bind_eq_some_iff.mp h
      refine (hstart hstarted).trans ?_
      split at h
      · obtain rfl := Option.some.inj h
        split
        · exact List.prefix_append _ _
        · exact List.prefix_rfl
      · exact Option.some.inj h ▸ List.prefix_rfl
  | endtag tag =>
    obtain rfl := Option.some.inj h
    unfold handleEndtag
    split
    · exact List.prefix_rfl
    · split
      · exact List.prefix_rfl
      · split
        · exact List.prefix_append _ _
        · exact List.prefix_rfl
  | data text =>
    obtain rfl := Option.some.inj h
    unfold handleData
    split
    · exact List.prefix_append _ _
    · exact List.prefix_rfl

theorem out_foldlM (events : List Event) (h : events.foldlM (handle splits) s = some s') :
    s.out <+: s'.out := by
  induction events generalizing s with
  | nil => exact Option.some.inj h ▸ List.prefix_rfl
  | cons event rest ih =>
    obtain ⟨next, hnext, h⟩ := Option.bind_eq_some_iff.mp (List.foldlM_cons.symm.trans h)
    exact (out_handle hnext).trans (ih h)

theorem markup_eq (h : feed splits events = some s) : markup splits events = s.out := by
  rw [markup, h]
  rfl

theorem cleaned_eq (h : feed splits events = some s) : cleaned splits events = s.close := by
  rw [cleaned, h]
  rfl

/-- What is written of the first events is the beginning of what is written of all. -/
theorem markup_prefix_cleaned (h : feed splits events = some s) (hbefore : before <+: events) :
    markup splits before <+: cleaned splits events := by
  obtain ⟨after, rfl⟩ := hbefore
  rw [cleaned_eq h]
  rw [feed_append] at h
  obtain ⟨s', hfound, hafter⟩ := Option.bind_eq_some_iff.mp h
  rw [markup_eq hfound]
  exact (out_foldlM after hafter).trans (List.prefix_append _ _)

/-- **A message is reduced to harmless pieces, well nested and closed, before the cut.** -/
theorem cleaned_spec (h : feed splits events = some s) :
    (∀ p ∈ cleaned splits events, Harmless p) ∧ Nested (cleaned splits events) := by
  have hgood := good_feed h
  rw [cleaned_eq h]
  constructor
  · refine List.forall_mem_append.mpr ⟨hgood.harmless, fun p hp => ?_⟩
    obtain ⟨e, he, rfl⟩ := List.mem_map.mp hp
    exact hgood.named e he
  · have hclose : ∀ opened : List (String × String),
        nest (opened.map Prod.snd) (opened.map fun e => .close e.2) = some [] := by
      intro opened
      induction opened with
      | nil => rfl
      | cons e rest ih =>
        rw [List.map_cons, List.map_cons, nest_close]
        exact ih
    rw [Nested, Cleaner.close, nest_append, hgood.nested, Option.bind_some, hclose]

theorem written_append (pieces more : List Piece) :
    written (pieces ++ more) = written pieces ++ written more :=
  List.flatMap_append

theorem written_mono {more : List Piece} (h : pieces <+: more) :
    written pieces <+: written more := by
  obtain ⟨rest, rfl⟩ := h
  rw [written_append]
  exact List.prefix_append _ _

/-! ### The elements that are dropped -/

/-- Only the start and the end of an element to be dropped move the counter. -/
theorem skip_handle {event : Event} (h : handle splits s event = some s') :
    s'.skip = if event.startsDropped then s.skip + 1
      else if event.endsDropped then s.skip - 1 else s.skip := by
  have hstart : ∀ {s s' : Cleaner} {tag attrs}, tag ∉ DROP_WITH_CONTENT →
      handleStarttag splits s tag attrs = some s' → s'.skip = s.skip := by
    intro s s' tag attrs htag h
    rw [handleStarttag, if_neg htag] at h
    split at h
    · exact Option.some.inj h ▸ rfl
    · split at h
      · obtain ⟨href, -, h⟩ := Option.bind_eq_some_iff.mp h
        obtain rfl := Option.some.inj h
        split <;> rfl
      · split at h
        · exact Option.some.inj h ▸ rfl
        · exact Option.some.inj h ▸ rfl
  cases event with
  | starttag tag attrs =>
    by_cases htag : tag ∈ DROP_WITH_CONTENT
    · rw [handle, handleStarttag, if_pos htag] at h
      rw [if_pos (show Event.startsDropped (.starttag tag attrs) = true from decide_eq_true htag)]
      exact Option.some.inj h ▸ rfl
    · rw [if_neg (show ¬Event.startsDropped (.starttag tag attrs) = true from
        fun hdropped => htag (of_decide_eq_true hdropped))]
      exact hstart htag h
  | startendtag tag attrs =>
    show s'.skip = s.skip
    unfold handle handleStartendtag at h
    dsimp only at h
    split at h
    · exact Option.some.inj h ▸ rfl
    · next htag =>
      obtain ⟨started, hstarted, h⟩ := Option.bind_eq_some_iff.mp h
      rw [← hstart (fun hdropped => htag (.inl hdropped)) hstarted]
      split at h
      · obtain rfl := Option.some.inj h
        split <;> rfl
      · exact Option.some.inj h ▸ rfl
  | endtag tag =>
    obtain rfl := Option.some.inj h
    show (handleEndtag s tag).skip = if decide (tag ∈ DROP_WITH_CONTENT) then _ else _
    unfold handleEndtag
    split
    · next htag => rw [if_pos (decide_eq_true htag)]
    · next htag =>
      rw [if_neg fun hdropped => htag (of_decide_eq_true hdropped)]
      split
      · rfl
      · split <;> rfl
  | data text =>
    obtain rfl := Option.some.inj h
    show (handleData s text).skip = s.skip
    unfold handleData
    split <;> rfl

/-- No event starts an element and ends one. -/
theorem not_endsDropped {event : Event} (h : event.startsDropped = true) :
    event.endsDropped = false := by
  cases event with
  | starttag tag attrs => rfl
  | startendtag tag attrs => rfl
  | endtag tag => cases h
  | data text => rfl

/-- **The counter of elements to be dropped**: the most by which their start tags exceed their end
    tags, over the stretches up to the last event. -/
theorem skip_feed (h : feed splits events = some s) :
    (∀ stretch, stretch <:+ events →
        stretch.countP Event.startsDropped ≤ stretch.countP Event.endsDropped + s.skip)
      ∧ ∃ stretch, stretch <:+ events ∧
        stretch.countP Event.startsDropped = stretch.countP Event.endsDropped + s.skip := by
  induction events using List.reverseRecOn generalizing s with
  | nil =>
    obtain rfl := Option.some.inj h
    refine ⟨fun stretch hstretch => ?_, [], List.suffix_rfl, rfl⟩
    rw [List.suffix_nil.mp hstretch]
    exact Nat.zero_le _
  | append_singleton before event ih =>
    rw [feed_append] at h
    obtain ⟨found, hfound, h⟩ := Option.bind_eq_some_iff.mp h
    obtain ⟨next, hnext, h⟩ := Option.bind_eq_some_iff.mp (List.foldlM_cons.symm.trans h)
    obtain rfl := Option.some.inj h
    obtain ⟨hmost, longest, hlongest, hreached⟩ := ih hfound
    have hskip := skip_handle hnext
    have hone : event.startsDropped = true → event.endsDropped = false := not_endsDropped
    -- a stretch is empty, or one up to the event before and this event
    constructor
    · intro stretch hstretch
      rcases List.suffix_concat_iff.mp hstretch with rfl | ⟨front, rfl, hfront⟩
      · exact Nat.zero_le _
      · have := hmost front hfront
        simp only [List.countP_append, List.countP_singleton]
        grind
    · by_cases hempty : next.skip = 0
      · exact ⟨[], List.nil_suffix, by rw [hempty]; rfl⟩
      · refine ⟨longest ++ [event], List.suffix_concat_iff.mpr (.inr ⟨longest, rfl, hlongest⟩), ?_⟩
        simp only [List.countP_append, List.countP_singleton]
        grind

theorem skip_eq_zero_iff (h : feed splits events = some s) : s.skip = 0 ↔ ¬Surplus events := by
  obtain ⟨hmost, longest, hlongest, hreached⟩ := skip_feed h
  constructor
  · rintro hskip ⟨stretch, hstretch, hlt⟩
    have := hmost stretch hstretch
    omega
  · intro hsurplus
    by_contra hskip
    exact hsurplus ⟨longest, hlongest, by omega⟩

/-! ### The cut -/

/-- **The cut leaves harmless pieces, well nested and closed, exactly where it takes nothing away or
    falls where no element is open.** -/
theorem wellFormed_iff (h : feed splits events = some s) :
    (∃ pieces, written pieces = (written (cleaned splits events)).take MAX_HTML
        ∧ (∀ p ∈ pieces, Harmless p) ∧ Nested pieces)
      ↔ (written (cleaned splits events)).length ≤ MAX_HTML ∨
        ∃ pieces, pieces <+: cleaned splits events ∧ Nested pieces
          ∧ (written pieces).length = MAX_HTML := by
  obtain ⟨hharmless, hnested⟩ := cleaned_spec h
  constructor
  · rintro ⟨pieces, hwritten, hpieces, hclosed⟩
    refine or_iff_not_imp_left.mpr fun hlong => ⟨pieces, ?_, hclosed, ?_⟩
    · refine prefixCode_write.prefix_of_prefix hpieces hharmless ?_
      show written pieces <+: written _
      rw [hwritten]
      exact List.take_prefix _ _
    · rw [hwritten, List.length_take]
      omega
  · rintro (hshort | ⟨pieces, hbegins, hclosed, hlength⟩)
    · exact ⟨cleaned splits events, (List.take_of_length_le hshort).symm, hharmless, hnested⟩
    · refine ⟨pieces, ?_, fun p hp => hharmless p (hbegins.subset hp), hclosed⟩
      rw [← hlength]
      exact List.prefix_iff_eq_take.mp (written_mono hbegins)

/-- **A text is written where no element to be dropped is counted, and nowhere else.** -/
theorem markup_data {text : String} (h : feed splits before = some s) (hne : text ≠ "") :
    markup splits (before ++ [Event.data text]) = markup splits before ++ text.toList.map Piece.char
      ↔ ¬Surplus before := by
  have hfeed : feed splits (before ++ [Event.data text]) = some (handleData s text) := by
    rw [feed_append, h]
    rfl
  rw [markup_eq hfeed, markup_eq h, ← skip_eq_zero_iff h, handleData]
  split
  · next hskip => exact iff_of_true rfl hskip
  · next hskip =>
    refine iff_of_false (fun heq => hne ?_) hskip
    have hnil := List.map_eq_nil_iff.mp (List.self_eq_append_right.mp heq)
    exact String.toList_eq_nil_iff.mp hnil

/-- **Every text outside the elements that are dropped is shown up to the cut exactly where their
    tags balance.** -/
theorem shown_iff (h : feed splits events = some s) :
    (∀ before text after part, events = before ++ Event.data text :: after → inside before = [] →
      part <+: text.toList →
      (written (markup splits before ++ part.map Piece.char)).length ≤ MAX_HTML →
        markup splits (before ++ [Event.data (String.ofList part)])
            = markup splits before ++ part.map Piece.char
          ∧ written (markup splits before ++ part.map Piece.char)
            <+: (written (cleaned splits events)).take MAX_HTML)
      ↔ ∀ before text after c, events = before ++ Event.data text :: after →
        text.toList.head? = some c → inside before = [] →
        (written (markup splits before ++ [Piece.char c])).length ≤ MAX_HTML → ¬Surplus before := by
  constructor
  · rintro hshown before text after c rfl hhead hinside hfits
    rw [feed_append] at h
    obtain ⟨found, hfound, -⟩ := Option.bind_eq_some_iff.mp h
    obtain ⟨rest, hrest⟩ := List.head?_eq_some_iff.mp hhead
    -- the first character tells whether the text is shown
    have hpart := (hshown before text after [c] rfl hinside (hrest ▸ ⟨rest, rfl⟩) hfits).1
    refine (markup_data hfound ?_).mp (hpart.trans ?_)
    · exact fun hempty => absurd (congrArg String.toList hempty) (by simp)
    · rw [String.toList_ofList]
  · rintro hcounted before text after part rfl hinside hpart hfits
    rw [feed_append] at h
    obtain ⟨found, hfound, hrest⟩ := Option.bind_eq_some_iff.mp h
    have hall : feed splits (before ++ Event.data text :: after) = some s := by
      rw [feed_append, hfound]
      exact hrest
    cases part with
    | nil =>
      rw [List.map_nil, List.append_nil] at hfits ⊢
      have hwritten := written_mono (markup_prefix_cleaned hall (List.prefix_append before _))
      refine ⟨?_, List.prefix_take_iff.mpr ⟨hwritten, hfits⟩⟩
      have hfeed : feed splits (before ++ [Event.data (String.ofList [])])
          = some (handleData found (String.ofList [])) := by
        rw [feed_append, hfound]
        rfl
      rw [markup_eq hfeed, markup_eq hfound, handleData]
      split
      · exact List.append_nil _
      · rfl
    | cons c part =>
      obtain ⟨rest, hrest⟩ := hpart
      -- what fits as a whole fits to its first character
      have hsurplus : ¬Surplus before := by
        refine hcounted before text after c rfl (by rw [← hrest]; rfl) hinside ?_
        refine le_trans (List.IsPrefix.length_le (written_mono ?_)) hfits
        exact (List.prefix_append_right_inj _).mpr ⟨part.map Piece.char, rfl⟩
      refine ⟨?_, List.prefix_take_iff.mpr ⟨?_, hfits⟩⟩
      · refine ((markup_data hfound ?_).mpr hsurplus).trans ?_
        · exact fun hempty => absurd (congrArg String.toList hempty) (by simp)
        · rw [String.toList_ofList]
      · have htext : text ≠ "" := by
          rintro rfl
          cases hrest
        have hmarkup := (markup_data hfound htext).mpr hsurplus
        refine written_mono (List.IsPrefix.trans ?_ (markup_prefix_cleaned hall
          (⟨after, List.append_assoc _ _ _⟩ : before ++ [Event.data text] <+: _)))
        rw [hmarkup, ← hrest, List.map_append, ← List.append_assoc]
        exact List.prefix_append _ _

theorem sanitary_iff (h : feed splits events = some s) :
    Sanitary splits events (String.ofList ((written (cleaned splits events)).take MAX_HTML))
      ↔ Fits splits events := by
  have hwellFormed := wellFormed_iff h
  have hshown := shown_iff h
  constructor
  · rintro ⟨hw, hs⟩
    rw [String.toList_ofList] at hw hs
    exact ⟨hwellFormed.mp hw, hshown.mp hs⟩
  · rintro ⟨hclosed, hcounted⟩
    constructor
    · rw [String.toList_ofList]
      exact hwellFormed.mpr hclosed
    · rw [String.toList_ofList]
      exact hshown.mpr hcounted

/-! ### The result -/

variable (splits) (parse : String → List Event) (raw : String)

/-- A message as it is taken breaks nothing. -/
theorem feed_message : ∃ s, feed splits (message splits parse raw) = some s := by
  unfold message
  split
  · exact ⟨_, rfl⟩
  · split
    · next h => exact Option.isSome_iff_exists.mp h
    · exact ⟨_, rfl⟩

/-- The result is what is written of the message, up to the cut. -/
theorem sanitizeHtml_eq : sanitizeHtml splits parse raw
    = String.ofList ((written (cleaned splits (message splits parse raw))).take MAX_HTML) := by
  unfold sanitizeHtml message
  split
  · rfl
  · split
    · next s hfeed => rw [if_pos (by rw [hfeed]; rfl), cleaned_eq hfeed]
    · next hfeed =>
      rw [if_neg (by rw [hfeed]; exact Bool.false_ne_true)]
      have htext : cleaned splits [.data raw] = raw.toList.map Piece.char ++ [] := rfl
      rw [htext, List.append_nil, written, List.flatMap_map]
      rfl

/-- **The result is harmless, well nested and closed, and shows every text outside the elements that
    are dropped, exactly where the message fits.** -/
theorem sanitized_iff : Sanitary splits (message splits parse raw) (sanitizeHtml splits parse raw)
    ↔ Fits splits (message splits parse raw) := by
  obtain ⟨s, hs⟩ := feed_message splits parse raw
  rw [sanitizeHtml_eq]
  exact sanitary_iff hs

/-- What follows an `embed` is dropped, although that element has no content. -/
example : sanitizeHtml (fun _ => true) (fun _ => [.starttag "embed" [], .data "hi"]) "<embed>hi"
    = "" := by decide +kernel

/-- A message in bold. -/
def bold (n : ℕ) : List Event := [.starttag "b" [], .data (String.ofList (List.replicate n 'a'))]

private theorem feed_bold (n : ℕ) : feed splits (bold n)
    = some ⟨.tag "b" :: (List.replicate n 'a').map Piece.char, [("b", "b")], 0⟩ := by
  rw [← String.toList_ofList (l := List.replicate n 'a')]
  rfl

private theorem length_written_bold (n : ℕ) :
    (written (.tag "b" :: (List.replicate n 'a').map Piece.char)).length = n + 3 := by
  have hletters : written ((List.replicate n 'a').map Piece.char) = List.replicate n 'a' := by
    induction n with
    | zero => rfl
    | succ n ih =>
      rw [List.replicate_succ, List.map_cons, written, List.flatMap_cons]
      exact congrArg (List.cons 'a') ih
  show (write (.tag "b") ++ written _).length = n + 3
  rw [hletters, List.length_append, List.length_replicate, Nat.add_comm]
  rfl

/-- **A message in bold that is too long ends without the end of the bold.** -/
theorem not_sanitary_bold : ¬Sanitary (fun _ => true) (bold 60000)
    (sanitizeHtml (fun _ => true) (fun _ => bold 60000)
      ("<b>" ++ String.ofList (List.replicate 60000 'a'))) := by
  have hfeed := feed_bold (fun _ => true) 60000
  have hmessage : message (fun _ => true) (fun _ => bold 60000)
      ("<b>" ++ String.ofList (List.replicate 60000 'a')) = bold 60000 := by
    have hraw : "<b>" ++ String.ofList (List.replicate 60000 'a') ≠ "" := by
      intro hempty
      have hnil := congrArg String.toList hempty
      rw [String.toList_append] at hnil
      exact absurd (List.append_eq_nil_iff.mp hnil).1 (by decide)
    unfold message
    rw [if_neg hraw, if_pos (by rw [hfeed]; rfl)]
  rw [sanitizeHtml_eq, hmessage, sanitary_iff hfeed]
  rintro ⟨hclosed, -⟩
  rw [cleaned_eq hfeed] at hclosed
  have hlong := (written_mono (List.prefix_append
    (.tag "b" :: (List.replicate 60000 'a').map Piece.char) [.close "b"])).length_le
  rw [length_written_bold] at hlong
  rcases hclosed with hshort | ⟨pieces, hbegins, hnested, hcut⟩
  · exact absurd (hlong.trans hshort) (by decide)
  · rcases List.prefix_concat_iff.mp hbegins with rfl | hbegins
    · exact absurd (hlong.trans hcut.le) (by decide)
    · cases pieces with
      | nil => exact absurd hcut (by decide)
      | cons piece rest =>
        -- after the tag there are letters only, so the bold is still open
        obtain ⟨rfl, hrest⟩ := List.cons_prefix_cons.mp hbegins
        rw [List.prefix_iff_eq_take.mp hrest, ← List.map_take] at hnested
        have hopen : nest ["b"] _ = some [] := hnested
        rw [nest_chars] at hopen
        cases hopen

end

end WPanel.Hosting.MailHtml
