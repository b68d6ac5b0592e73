import WPanel.Hosting.MailHtml
import WPanel.Lib.Lowering
import WPanel.Lib.Numerals
import WPanel.Lib.Paths
import WPanel.Lib.Patterns

namespace WPanel.Notifications.HtmlClean

open WPanel.Lib
open WPanel.Hosting.MailHtml (ENTITIES apostrophe escape quote)

/-!
# The HTML of an email

`notifications/html_clean.py`: the HTML that a Super Admin writes for an email, less everything
that is on no list.

* `cleanUrl`, `cleanStyle`, `keptAttrs` — the attributes that are kept;
* `Cleaner`, `handle`, `clean` — the cleaner, over the events of `HTMLParser`;
* `Clean` — the result is well nested and harmless, and shows what stands outside the elements that
  are dropped;
* `Delimited` — every dropped element, whatever HTML says of its content, goes from its start tag
  to the end tag of its own name that balances it;
* `clean_iff` — the result is as it should be where every text to be shown is so delimited.
-/

def MAX_LENGTH : ℕ := 100000

def ALLOWED_TAGS : List String :=
  ["a", "b", "strong", "i", "em", "u", "s", "small", "sub", "sup", "br", "hr", "p", "div", "span",
    "blockquote", "pre", "code", "h1", "h2", "h3", "h4", "ul", "ol", "li", "table", "thead",
    "tbody", "tfoot", "tr", "td", "th", "img", "center"]

def VOID_TAGS : List String := ["br", "hr", "img"]

def DROP_WITH_CONTENT : List String :=
  ["script", "style", "iframe", "frame", "frameset", "object", "embed", "applet", "form",
    "textarea", "select", "option", "button", "svg", "math", "link", "meta", "head", "title",
    "noscript", "template", "base", "audio", "video", "canvas", "input", "xmp", "plaintext",
    "noembed"]

def GLOBAL_ATTRS : List String := ["style", "title", "align", "dir", "lang"]

def TAG_ATTRS : List (String × List String) :=
  [("a", ["href", "target", "rel"]), ("img", ["src", "alt", "width", "height"]),
    ("td", ["colspan", "rowspan", "width", "height", "valign", "bgcolor"]),
    ("th", ["colspan", "rowspan", "width", "height", "valign", "bgcolor"]),
    ("table", ["width", "cellpadding", "cellspacing", "border", "bgcolor", "role"]),
    ("tr", ["valign", "bgcolor"]), ("ol", ["start"])]

/-- The attributes that a tag may have. -/
def allowedAttrs (tag : String) : List String := GLOBAL_ATTRS ++ (TAG_ATTRS.lookup tag).getD []

def LINK_SCHEMES : List String := ["http:", "https:", "mailto:", "tel:"]

def IMAGE_SCHEMES : List String := ["http:", "https:", "cid:"]

def STYLE_PROPS : List String :=
  ["color", "background", "background-color", "font-size", "font-weight", "font-style",
    "font-family", "text-align", "text-decoration", "text-transform", "line-height",
    "letter-spacing", "padding", "padding-top", "padding-right", "padding-bottom", "padding-left",
    "margin", "margin-top", "margin-right", "margin-bottom", "margin-left", "border", "border-top",
    "border-right", "border-bottom", "border-left", "border-color", "border-style", "border-width",
    "border-radius", "border-collapse", "width", "max-width", "min-width", "height", "display",
    "vertical-align", "list-style-type", "white-space", "word-break"]

def DISPLAY_VALUES : List String :=
  ["block", "inline", "inline-block", "table", "table-cell", "table-row"]

/-- What Python knows of Unicode and of HTML: `str.lower`, `\w`, and `html.unescape`. -/
structure Library extends Lowering where
  isWord : Char → Bool
  unescape : String → String

/-! ### Styles -/

/-- A letter, as a pattern takes it that ignores case. -/
def foldCase (c : Char) : Char :=
  if c = 'ſ' then 's' else if c = kelvin then 'k' else if c = dottedI ∨ c = 'ı' then 'i'
  else c.toLower

def BAD_WORDS : List String :=
  ["expression", "javascript", "vbscript", "behavio", "@import", "-moz-binding"]

/-- `\ < > { }`. -/
def BAD_CHARS : List Char := [Char.ofNat 92, '<', '>', '\x7b', '\x7d']

/-- `url\s*\(`, at the beginning of a text. -/
def startsUrl (text : List Char) : Bool :=
  "url".toList.isPrefixOf text && ((text.drop 3).dropWhile isSpace).head? = some '('

/-- `BAD_STYLE_VALUE.search`. -/
def badStyleValue (value : String) : Bool :=
  let text := value.toList.map foldCase
  text.tails.any startsUrl
    || BAD_WORDS.any (fun word => text.tails.any (word.toList.isPrefixOf ·))
    || text.any (· ∈ BAD_CHARS)

/-- The signs in `GOOD_STYLE_VALUE`. -/
def STYLE_SIGNS : List Char := "#%.,()+/-!".toList ++ [quote, apostrophe]

variable (lib : Library)

/-- `GOOD_STYLE_VALUE.match`. -/
def goodStyleValue (value : String) : Bool :=
  matchesLine (·.all fun c => lib.isWord c || isSpace c || c ∈ STYLE_SIGNS) value

/-- What `_clean_style` keeps of a declaration: its name and its value. -/
def keptDeclaration (declaration : String) : Option (String × String) :=
  let name := lib.lower (strip (partition ':' declaration).1)
  let raw := strip (partition ':' declaration).2
  if ':' ∉ declaration.toList ∨ name ∉ STYLE_PROPS ∨ raw = "" ∨ 200 < raw.toList.length then none
  else if badStyleValue raw ∨ goodStyleValue lib raw = false then none
  else if name = "display" ∧ lib.lower raw ∉ DISPLAY_VALUES then none
  else some (name, raw)

/-- A declaration as it is written. -/
def declarationText (declaration : String × String) : List Char :=
  declaration.1.toList ++ ':' :: declaration.2.toList

/-- `_clean_style`. -/
def cleanStyle (value : String) : String :=
  String.ofList ([';'].intercalate
    (((splitOn ';' value).filterMap (keptDeclaration lib)).map declarationText))

/-! ### Addresses -/

/-- `[\x00-\x20\x7f]`: what can hide the scheme of an address. -/
def hidesScheme (c : Char) : Bool := c.toNat ≤ 0x20 || c.toNat = 0x7f

/-- `_clean_url`. -/
def cleanUrl (value : String) (schemes : List String) : String :=
  let value := String.ofList ((lib.unescape value).toList.filter fun c => !hidesScheme c)
  if value = "" ∨ 2000 < value.toList.length then ""
  else if startsWith value "#" then
    if schemes = LINK_SCHEMES ∧ value.toList.length < 100 then value else ""
  else if schemes.any (startsWith (lib.lower value)) then value else ""

/-! ### Attributes -/

/-- `ATTR_NUMBER`. -/
def attrNumber (text : List Char) : Bool :=
  let digits := if text.getLast? = some '%' then text.dropLast else text
  1 ≤ digits.length && digits.length ≤ 4 && digits.all isDecimal

/-- `ATTR_COLOR`. -/
def attrColor (text : List Char) : Bool :=
  let letters := if text.head? = some '#' then text.tail else text
  3 ≤ letters.length && letters.length ≤ 20 && letters.all Char.isAlphanum

/-- A word of a list, in small letters and without the blanks around it. -/
def oneOf (words : List String) (value : String) : String :=
  if lib.lower (strip value) ∈ words then lib.lower (strip value) else ""

/-- What becomes of an attribute's value; nothing, for those that are set in the end. -/
def cleanValue (name value : String) : Option String :=
  if name = "href" then some (cleanUrl lib value LINK_SCHEMES)
  else if name = "src" then some (cleanUrl lib value IMAGE_SCHEMES)
  else if name = "style" then some (cleanStyle lib value)
  else if name ∈ ["width", "height", "colspan", "rowspan", "cellpadding", "cellspacing", "border",
      "start"] then
    some (if matchesLine attrNumber (strip value) then value else "")
  else if name = "bgcolor" then some (if matchesLine attrColor (strip value) then value else "")
  else if name ∈ ["align", "valign"] then
    some (oneOf lib ["left", "right", "center", "top", "middle", "bottom"] value)
  else if name = "dir" then some (oneOf lib ["ltr", "rtl"] value)
  else if name = "role" then some (oneOf lib ["presentation"] value)
  else if name ∈ ["target", "rel"] then none
  else some (clip 200 value)

/-- An attribute as it is kept. -/
def keptAttr (tag : String) (attr : String × Option String) : Option (String × String) := do
  let name := lib.lower attr.1
  guard (name ∈ allowedAttrs tag)
  let value ← cleanValue lib name (attr.2.getD "")
  guard (value ≠ "" ∨ name = "alt")
  return (name, value)

/-- Every link opens a window of its own. -/
def linkAttrs (tag : String) (kept : List (String × String)) : List (String × String) :=
  if tag = "a" then
    if kept.any (·.1 = "href") then
      kept ++ [("target", "_blank"), ("rel", "noopener noreferrer")]
    else kept.filter (·.1 ≠ "href")
  else kept

/-- `_attrs`; nothing, for a picture without an address. -/
def keptAttrs (tag : String) (attrs : List (String × Option String)) :
    Option (List (String × String)) :=
  let kept := linkAttrs tag (attrs.filterMap (keptAttr lib tag))
  if tag = "img" ∧ kept.any (·.1 = "src") = false then none else some kept

/-! ### What is written -/

/-- A piece of the result: a letter, a tag with its attributes, or the end of an element. -/
inductive Piece
  | char (c : Char)
  | tag (name : String) (attrs : List (String × String))
  | close (name : String)
  deriving DecidableEq, Repr

/-- `html.escape(text, quote=False)`, of one character. -/
def escapeText (c : Char) : List Char := ((ENTITIES.take 3).lookup c).getD [c]

/-- An attribute in its tag. -/
def writeAttr (attr : String × String) : List Char :=
  ' ' :: attr.1.toList ++ '=' :: quote :: escape attr.2 ++ [quote]

def write : Piece → List Char
  | .char c => escapeText c
  | .tag name attrs => '<' :: name.toList ++ attrs.flatMap writeAttr ++ ['>']
  | .close name => "</".toList ++ name.toList ++ ['>']

def written (pieces : List Piece) : List Char := pieces.flatMap write

/-! ### The cleaner -/

/-- What `HTMLParser` calls the cleaner with; declarations and the like are taken as comments. -/
inductive Event
  | starttag (tag : String) (attrs : List (String × Option String))
  | startendtag (tag : String) (attrs : List (String × Option String))
  | endtag (tag : String)
  | data (text : String)
  | comment (text : String)
  deriving DecidableEq, Repr

/-- `_Cleaner`. -/
structure Cleaner where
  out : List Piece
  /-- The allowed tags that are open, the innermost first. -/
  stack : List String
  skip : ℕ
  skipTag : String
  deriving DecidableEq, Repr

def Cleaner.init : Cleaner := ⟨[], [], 0, ""⟩

/-- `_open`. -/
def openTag (s : Cleaner) (tag : String) (attrs : List (String × Option String))
    (closingSlash : Bool) : Cleaner :=
  if s.skip ≠ 0 then
    if tag = s.skipTag ∧ tag ∉ VOID_TAGS then { s with skip := s.skip + 1 } else s
  else if tag ∈ DROP_WITH_CONTENT then
    if tag ∉ VOID_TAGS ∧ closingSlash = false then { s with skip := 1, skipTag := tag } else s
  else if tag ∉ ALLOWED_TAGS then s
  else match keptAttrs lib tag attrs with
    | none => s
    | some kept =>
      if tag ∈ VOID_TAGS then { s with out := s.out ++ [Piece.tag tag kept] }
      else { s with out := s.out ++ [Piece.tag tag kept], stack := tag :: s.stack }

/-- The ends that are written up to the innermost element of this tag, and the elements that stay
    open. -/
def closeUntil (tag : String) : List String → List Piece × List String
  | [] => ([], [])
  | top :: stack =>
    if top = tag then ([.close top], stack)
    else (.close top :: (closeUntil tag stack).1, (closeUntil tag stack).2)

/-- `handle_endtag`. -/
def handleEndtag (s : Cleaner) (tag : String) : Cleaner :=
  if s.skip ≠ 0 then if tag = s.skipTag then { s with skip := s.skip - 1 } else s
  else if tag ∈ VOID_TAGS ∨ tag ∉ s.stack then s
  else { s with out := s.out ++ (closeUntil tag s.stack).1, stack := (closeUntil tag s.stack).2 }

/-- `handle_data`. -/
def handleData (s : Cleaner) (text : String) : Cleaner :=
  if s.skip = 0 then { s with out := s.out ++ text.toList.map Piece.char } else s

def handle (s : Cleaner) : Event → Cleaner
  | .starttag tag attrs => openTag lib s (lib.lower tag) attrs false
  | .startendtag tag attrs => openTag lib s (lib.lower tag) attrs true
  | .endtag tag => handleEndtag s (lib.lower tag)
  | .data text => handleData s text
  | .comment _ => s

def feed (events : List Event) : Cleaner := events.foldl (handle lib) Cleaner.init

/-- What is written in the end: the elements that are still open are closed. -/
def Cleaner.close (s : Cleaner) : List Piece := s.out ++ s.stack.map .close

/-- `clean`; `parse` is what `HTMLParser` makes of a text. -/
def clean (parse : String → List Event) (source : String) : String :=
  let source := clip MAX_LENGTH source
  if strip source = "" then ""
  else strip (String.ofList (written (feed lib (parse source)).close))

/-! ### What the result should be -/

/-- The address starts with one of the schemes, whatever the case of its letters, and nothing in it
    hides that. -/
def HasScheme (schemes : List String) (url : String) : Prop :=
  (∃ scheme ∈ schemes, scheme.toList <+: url.toList.map Char.toLower)
    ∧ ∀ c ∈ url.toList, hidesScheme c = false

/-- A declaration that may be in a style. -/
def AllowedDeclaration (declaration : String) : Prop :=
  ∃ name raw, declaration.toList = declarationText (name, raw) ∧ name ∈ STYLE_PROPS ∧ raw ≠ ""
    ∧ raw.toList.length ≤ 200 ∧ badStyleValue raw = false ∧ goodStyleValue lib raw = true
    ∧ (name = "display" → lib.lower raw ∈ DISPLAY_VALUES)

/-- Only these attributes may a tag have. -/
structure HarmlessAttr (tag : String) (attr : String × String) : Prop where
  allowed : attr.1 ∈ allowedAttrs tag
  href : attr.1 = "href" → HasScheme LINK_SCHEMES attr.2 ∨ attr.2.toList.head? = some '#'
  src : attr.1 = "src" → HasScheme IMAGE_SCHEMES attr.2
  style : attr.1 = "style" → ∀ part ∈ splitOn ';' attr.2, AllowedDeclaration lib part

/-- Only these pieces may be in the result. -/
def Harmless : Piece → Prop
  | .char _ => True
  | .tag name attrs => name ∈ ALLOWED_TAGS ∧ ∀ attr ∈ attrs, HarmlessAttr lib name attr
  | .close name => name ∈ ALLOWED_TAGS

/-- The elements that are open after some pieces, the innermost first; nothing, where an element
    ends that is not the innermost. -/
def nest : List String → List Piece → Option (List String)
  | opened, [] => some opened
  | opened, .char _ :: rest => nest opened rest
  | opened, .tag name _ :: rest => nest (if name ∈ VOID_TAGS then opened else name :: opened) rest
  | name :: opened, .close name' :: rest => if name = name' then nest opened rest else none
  | [], .close _ :: _ => none

/-- The pieces are well nested, and every element is closed. -/
def Nested (pieces : List Piece) : Prop := nest [] pieces = some []

/-- The elements that are dropped and by HTML have no content: they end where they start. -/
def EMPTY : List String := ["link", "meta", "base", "input", "embed", "frame"]

/-- The elements to be dropped that an event leaves open, the innermost first. The end of an element
    is the end of those in it. -/
def enter (inside : List String) : Event → List String
  | .starttag tag _ =>
    if lib.lower tag ∈ DROP_WITH_CONTENT ∧ lib.lower tag ∉ EMPTY then lib.lower tag :: inside
    else inside
  | .endtag tag =>
    if lib.lower tag ∈ inside then (inside.dropWhile (· ≠ lib.lower tag)).tail else inside
  | .startendtag .. | .data _ | .comment _ => inside

/-- The elements to be dropped that are open after some events. -/
def inside (events : List Event) : List String := events.foldl (enter lib) []

/-- What is written of some events, before anything more is closed. -/
def markup (events : List Event) : List Piece := (feed lib events).out

/-- **The result is made of harmless pieces, well nested and closed, and but for white space around
    it, it shows every text outside the elements that are dropped: the whole of such a text is
    written, and stands in the result behind what is written of the events before it.** -/
structure Clean (events : List Event) (html : String) : Prop where
  wellFormed : ∃ pieces, written pieces = html.toList ∧ (∀ p ∈ pieces, Harmless lib p)
    ∧ Nested pieces
  shown : ∃ lead trail, (∀ c ∈ lead ++ trail, isSpace c = true) ∧
    ∀ before text after, events = before ++ Event.data text :: after → inside lib before = [] →
      markup lib (before ++ [Event.data text]) = markup lib before ++ text.toList.map Piece.char
        ∧ written (markup lib before ++ text.toList.map Piece.char) <+: lead ++ html.toList ++ trail

/-- What the message is: the events that the parser tells of it, up to the greatest length; white
    space is text. -/
def message (parse : String → List Event) (source : String) : List Event :=
  if strip (clip MAX_LENGTH source) = "" then [.data (clip MAX_LENGTH source)]
  else parse (clip MAX_LENGTH source)

/-! ### Which messages are cleaned to that -/

def Event.starts (tag : String) : Event → Bool
  | .starttag name _ | .startendtag name _ => lib.lower name = tag
  | _ => false

def Event.ends (tag : String) : Event → Bool
  | .endtag name => lib.lower name = tag
  | _ => false

def Event.drops : Event → Bool
  | .starttag tag _ => lib.lower tag ∈ DROP_WITH_CONTENT
  | _ => false

/-- The end tags of an element balance its start tags, self-closed ones too, and never come before
    them. -/
def Balanced (tag : String) (content : List Event) : Prop :=
  (∀ front, front <+: content →
      front.countP (Event.ends lib tag) ≤ front.countP (Event.starts lib tag))
    ∧ content.countP (Event.ends lib tag) = content.countP (Event.starts lib tag)

/-- **Every element to be dropped, even one without content, goes from its start tag to the end tag
    of its own name that balances it, whatever else starts or ends between them; and the last of
    them has ended.** -/
inductive Delimited : List Event → Prop
  | nil : Delimited []
  | plain {events : List Event} {event : Event} : Delimited events → event.drops lib = false →
      Delimited (events ++ [event])
  | dropped {events content : List Event} {tag name : String}
      {attrs : List (String × Option String)} : Delimited events →
      lib.lower tag ∈ DROP_WITH_CONTENT → Balanced lib (lib.lower tag) content →
      lib.lower name = lib.lower tag →
      Delimited (events ++ Event.starttag tag attrs :: content ++ [Event.endtag name])

section

variable {lib} {s : Cleaner} {events before content : List Event} {tag : String}
  {attrs : List (String × Option String)} {pieces : List Piece}

/-! ### The attributes that are kept -/

private theorem plain_schemes : ∀ scheme ∈ LINK_SCHEMES ++ IMAGE_SCHEMES,
    isPlainWord scheme = true ∧ scheme.toList.getLast? ≠ some 'i' := by decide

/-- An address that is kept has one of the schemes, or is a place in the page. -/
theorem cleanUrl_spec {value : String} {schemes : List String}
    (hne : cleanUrl lib value schemes ≠ "") (hschemes : schemes ⊆ LINK_SCHEMES ++ IMAGE_SCHEMES) :
    HasScheme schemes (cleanUrl lib value schemes) ∨
      schemes = LINK_SCHEMES ∧ (cleanUrl lib value schemes).toList.head? = some '#' := by
  unfold cleanUrl at hne ⊢
  dsimp only at hne ⊢
  generalize hurl : String.ofList ((lib.unescape value).toList.filter fun c => !hidesScheme c) = url
    at hne ⊢
  split at hne
  · exact absurd rfl hne
  · next hlong =>
    rw [if_neg hlong]
    split at hne
    · next hplace =>
      rw [if_pos hplace]
      split at hne
      · next hlink =>
        rw [if_pos hlink]
        obtain ⟨rest, hrest⟩ := List.isPrefixOf_iff_prefix.mp hplace
        exact .inr ⟨hlink.1, by rw [← hrest]; rfl⟩
      · exact absurd rfl hne
    · next hplace =>
      rw [if_neg hplace]
      split at hne
      · next hscheme =>
        rw [if_pos hscheme]
        obtain ⟨scheme, hmem, hstarts⟩ := List.any_eq_true.mp hscheme
        obtain ⟨hplain, hlast⟩ := plain_schemes scheme (hschemes hmem)
        refine .inl ⟨⟨scheme, hmem, ?_⟩, fun c hc => ?_⟩
        · exact ((lib.lowered url).isPrefix_iff (isPlain_of_isPlainWord hplain) hlast).mp
            (List.isPrefixOf_iff_prefix.mp hstarts)
        · rw [← hurl, String.toList_ofList] at hc
          simpa using (List.mem_filter.mp hc).2
      · exact absurd rfl hne

private theorem props_semicolon : ∀ name ∈ STYLE_PROPS, ';' ∉ name.toList := by decide

theorem of_mem_strip {c : Char} {s : String} (h : c ∈ (strip s).toList) : c ∈ s.toList := by
  rw [strip, String.toList_ofList, List.mem_reverse] at h
  exact (List.dropWhile_suffix _).subset
    (List.mem_reverse.mp ((List.dropWhile_suffix _).subset h))

/-- A declaration that is kept is allowed, and nothing in it ends it. -/
theorem keptDeclaration_spec {declaration : String} {kept : String × String}
    (h : keptDeclaration lib declaration = some kept) (hpart : ';' ∉ declaration.toList) :
    ';' ∉ declarationText kept
      ∧ AllowedDeclaration lib (String.ofList (declarationText kept)) := by
  unfold keptDeclaration at h
  dsimp only at h
  split at h
  · cases h
  · next hform =>
    rw [not_or, not_or, not_or, not_not, not_lt] at hform
    obtain ⟨-, hname, hraw, hshort⟩ := hform
    rw [not_not] at hname
    split at h
    · cases h
    · next hvalue =>
      rw [not_or, Bool.not_eq_true, Bool.not_eq_false] at hvalue
      split at h
      · cases h
      · next hdisplay =>
        obtain rfl := Option.some.inj h
        refine ⟨?_, _, _, String.toList_ofList, hname, hraw, hshort, hvalue.1, hvalue.2, ?_⟩
        · have hrest : ';' ∉ (strip (partition ':' declaration).2).toList := by
            intro hmem
            have hmem := of_mem_strip hmem
            rw [partition, String.toList_ofList] at hmem
            exact hpart ((List.dropWhile_suffix _).subset (List.mem_of_mem_drop hmem))
          rw [declarationText, List.mem_append, List.mem_cons, not_or, not_or]
          exact ⟨props_semicolon _ hname, by decide, hrest⟩
        · intro heq
          by_contra hnot
          exact hdisplay ⟨heq, hnot⟩

/-- A style that is kept is made of allowed declarations. -/
theorem cleanStyle_spec {value : String} (hne : cleanStyle lib value ≠ "") :
    ∀ part ∈ splitOn ';' (cleanStyle lib value), AllowedDeclaration lib part := by
  have hkept : ∀ kept ∈ (splitOn ';' value).filterMap (keptDeclaration lib),
      ';' ∉ declarationText kept
        ∧ AllowedDeclaration lib (String.ofList (declarationText kept)) := by
    intro kept hmem
    obtain ⟨declaration, hdeclaration, hkept⟩ := List.mem_filterMap.mp hmem
    refine keptDeclaration_spec hkept fun hsemicolon => ?_
    obtain ⟨part, hpart, rfl⟩ := List.mem_map.mp hdeclaration
    rw [String.toList_ofList] at hsemicolon
    exact (mem_splitOn hpart hsemicolon).1 rfl
  unfold cleanStyle at hne ⊢
  generalize (splitOn ';' value).filterMap (keptDeclaration lib) = kept at hne hkept ⊢
  rw [splitOn, String.toList_ofList, List.splitOn_intercalate]
  · intro part hpart
    rw [List.map_map] at hpart
    obtain ⟨declaration, hmem, rfl⟩ := List.mem_map.mp hpart
    exact (hkept declaration hmem).2
  · intro part hpart
    obtain ⟨declaration, hmem, rfl⟩ := List.mem_map.mp hpart
    exact (hkept declaration hmem).1
  · intro hnil
    rw [hnil] at hne
    exact hne rfl

private theorem of_guard {p : Prop} [Decidable p] {u : Unit}
    (h : (guard p : Option Unit) = some u) : p := by
  by_contra hp
  rw [guard, if_neg hp] at h
  cases h

theorem keptAttr_eq_some {attr : String × Option String} {name value : String}
    (h : keptAttr lib tag attr = some (name, value)) : name ∈ allowedAttrs tag
      ∧ cleanValue lib name (attr.2.getD "") = some value ∧ (value ≠ "" ∨ name = "alt") := by
  unfold keptAttr at h
  obtain ⟨_, hallowed, h⟩ := Option.bind_eq_some_iff.mp h
  obtain ⟨kept, hkept, h⟩ := Option.bind_eq_some_iff.mp h
  obtain ⟨_, hne, h⟩ := Option.bind_eq_some_iff.mp h
  obtain ⟨rfl, rfl⟩ := Prod.mk.inj (Option.some.inj h)
  exact ⟨of_guard hallowed, hkept, of_guard hne⟩

/-- An attribute that is kept is harmless. -/
theorem harmless_keptAttr {attr : String × Option String} {kept : String × String}
    (h : keptAttr lib tag attr = some kept) : HarmlessAttr lib tag kept := by
  obtain ⟨name, value⟩ := kept
  obtain ⟨hallowed, hvalue, hne⟩ := keptAttr_eq_some h
  refine ⟨hallowed, ?_, ?_, ?_⟩
  · rintro (rfl : name = "href")
    obtain rfl := Option.some.inj
      ((show cleanValue lib "href" _ = some (cleanUrl lib _ LINK_SCHEMES) from rfl).symm.trans
        hvalue)
    exact (cleanUrl_spec (hne.resolve_right (by decide)) (List.subset_append_left _ _)).imp_right
      And.right
  · rintro (rfl : name = "src")
    obtain rfl := Option.some.inj
      ((show cleanValue lib "src" _ = some (cleanUrl lib _ IMAGE_SCHEMES) from rfl).symm.trans
        hvalue)
    refine (cleanUrl_spec (hne.resolve_right (by decide))
      (List.subset_append_right _ _)).resolve_right ?_
    rintro ⟨hsame, -⟩
    exact absurd hsame (by decide)
  · rintro (rfl : name = "style")
    obtain rfl := Option.some.inj
      ((show cleanValue lib "style" _ = some (cleanStyle lib _) from rfl).symm.trans hvalue)
    exact cleanStyle_spec (hne.resolve_right (by decide))

/-- A tag keeps harmless attributes only. -/
theorem harmless_keptAttrs {kept : List (String × String)}
    (h : keptAttrs lib tag attrs = some kept) : ∀ attr ∈ kept, HarmlessAttr lib tag attr := by
  have hfound : ∀ attr ∈ attrs.filterMap (keptAttr lib tag), HarmlessAttr lib tag attr := by
    intro attr hattr
    obtain ⟨given, -, hkept⟩ := List.mem_filterMap.mp hattr
    exact harmless_keptAttr hkept
  have hset : ∀ attr ∈ [("target", "_blank"), ("rel", "noopener noreferrer")],
      HarmlessAttr lib "a" attr := by
    have hplain : ∀ attr ∈ [("target", "_blank"), ("rel", "noopener noreferrer")],
        attr.1 ∈ allowedAttrs "a" ∧ attr.1 ≠ "href" ∧ attr.1 ≠ "src" ∧ attr.1 ≠ "style" := by
      decide
    intro attr hattr
    obtain ⟨hallowed, hhref, hsrc, hstyle⟩ := hplain attr hattr
    exact ⟨hallowed, fun h => absurd h hhref, fun h => absurd h hsrc, fun h => absurd h hstyle⟩
  unfold keptAttrs at h
  dsimp only at h
  split at h
  · cases h
  · obtain rfl := Option.some.inj h
    unfold linkAttrs
    split
    · next htag =>
      obtain rfl := htag
      split
      · exact List.forall_mem_append.mpr ⟨hfound, hset⟩
      · exact fun attr hattr => hfound attr (List.mem_of_mem_filter hattr)
    · exact hfound

/-! ### The pieces that are written -/

/-- A piece that is white space. -/
def Piece.isBlank : Piece → Bool
  | .char c => isSpace c
  | .tag .. | .close _ => false

private theorem entities_ink : ∀ e ∈ ENTITIES.take 3, isSpace e.1 = false ∧ e.2 ≠ []
    ∧ e.2.head?.all (fun c => !isSpace c) = true
    ∧ e.2.getLast?.all (fun c => !isSpace c) = true := by
  decide

/-- A letter is written as itself, or as a word of its own. -/
theorem escapeText_cases (c : Char) :
    escapeText c = [c] ∨ (c, escapeText c) ∈ ENTITIES.take 3 := by
  unfold escapeText
  cases hlookup : (ENTITIES.take 3).lookup c with
  | none => exact .inl rfl
  | some word =>
    obtain ⟨front, back, heq, -⟩ := List.lookup_eq_some_iff.mp hlookup
    refine .inr ?_
    rw [heq]
    exact List.mem_append_right _ List.mem_cons_self

theorem write_blank {piece : Piece} (h : piece.isBlank = true) :
    ∀ c ∈ write piece, isSpace c = true := by
  cases piece with
  | char c =>
    rcases escapeText_cases c with heq | hword
    · rw [write, heq]
      exact List.forall_mem_singleton.mpr h
    · have hink := (entities_ink _ hword).1
      exact absurd (h.symm.trans hink) (by decide)
  | tag name attrs => cases h
  | close name => cases h

/-- What is not white space begins and ends so. -/
theorem write_ink {piece : Piece} (h : piece.isBlank = false) : write piece ≠ []
    ∧ (∀ c ∈ (write piece).head?, isSpace c = false)
    ∧ ∀ c ∈ (write piece).getLast?, isSpace c = false := by
  cases piece with
  | char c =>
    rcases escapeText_cases c with heq | hword
    · rw [write, heq]
      exact ⟨List.cons_ne_nil _ _, fun d hd => Option.some.inj hd ▸ h,
        fun d hd => Option.some.inj hd ▸ h⟩
    · obtain ⟨-, hne, hhead, hlast⟩ := entities_ink _ hword
      refine ⟨hne, fun d hd => ?_, fun d hd => ?_⟩
      · rw [write] at hd
        rw [Option.mem_def.mp hd] at hhead
        simpa using hhead
      · rw [write] at hd
        rw [Option.mem_def.mp hd] at hlast
        simpa using hlast
  | tag name attrs | close name =>
    refine ⟨List.cons_ne_nil _ _, ?_, ?_⟩
    · rintro c ⟨⟩
      decide
    · intro c hc
      rw [write, List.getLast?_concat] at hc
      obtain rfl := Option.some.inj hc
      decide

theorem written_append (pieces more : List Piece) :
    written (pieces ++ more) = written pieces ++ written more :=
  List.flatMap_append

theorem nest_append (opened : List String) (pieces more : List Piece) :
    nest opened (pieces ++ more) = (nest opened pieces).bind fun opened => nest opened more := by
  induction pieces generalizing opened with
  | nil => rfl
  | cons piece rest ih =>
    cases piece with
    | char c => exact ih opened
    | tag name attrs => exact ih _
    | close name =>
      cases opened with
      | nil => rfl
      | cons first opened =>
        rw [List.cons_append, nest, nest]
        split
        · exact ih opened
        · rfl

theorem nest_close (name : String) (opened : List String) (rest : List Piece) :
    nest (name :: opened) (.close name :: rest) = nest opened rest := by
  rw [nest, if_pos rfl]

/-- White space opens and closes nothing. -/
theorem nest_blank (opened : List String) (h : ∀ p ∈ pieces, p.isBlank = true) :
    nest opened pieces = some opened := by
  induction pieces with
  | nil => rfl
  | cons piece rest ih =>
    obtain ⟨hpiece, hrest⟩ := List.forall_mem_cons.mp h
    cases piece with
    | char c => exact ih hrest
    | tag name attrs => cases hpiece
    | close name => cases hpiece

theorem nest_chars (opened : List String) (cs : List Char) :
    nest opened (cs.map Piece.char) = some opened := by
  induction cs with
  | nil => rfl
  | cons c cs ih => exact ih

/-! ### What the cleaner keeps -/

/-- What the cleaner has written is harmless, and its open elements are the ones that are open in
    that. -/
structure Cleaner.Good (lib : Library) (s : Cleaner) : Prop where
  harmless : ∀ p ∈ s.out, Harmless lib p
  nested : nest [] s.out = some s.stack
  named : ∀ name ∈ s.stack, name ∈ ALLOWED_TAGS

theorem good_init : Cleaner.init.Good lib where
  harmless _ h := absurd h List.not_mem_nil
  nested := rfl
  named _ h := absurd h List.not_mem_nil

/-- A good cleaner writes harmless pieces more. -/
theorem Cleaner.Good.write {more : List Piece} {stack : List String} {skip : ℕ} {skipTag : String}
    (h : s.Good lib) (hharmless : ∀ p ∈ more, Harmless lib p)
    (hnest : nest s.stack more = some stack) (hnamed : ∀ name ∈ stack, name ∈ ALLOWED_TAGS) :
    Cleaner.Good lib ⟨s.out ++ more, stack, skip, skipTag⟩ where
  harmless := List.forall_mem_append.mpr ⟨h.harmless, hharmless⟩
  nested := by rw [nest_append, h.nested, Option.bind_some, hnest]
  named := hnamed

theorem good_openTag (hs : s.Good lib) (tag : String) (attrs : List (String × Option String))
    (closingSlash : Bool) : (openTag lib s tag attrs closingSlash).Good lib := by
  unfold openTag
  split
  · split
    · exact ⟨hs.harmless, hs.nested, hs.named⟩
    · exact hs
  · split
    · split
      · exact ⟨hs.harmless, hs.nested, hs.named⟩
      · exact hs
    · split
      · exact hs
      · next hallowed =>
        rw [not_not] at hallowed
        split
        · exact hs
        · next kept hkept =>
          have hpiece : ∀ p ∈ [Piece.tag tag kept], Harmless lib p :=
            List.forall_mem_singleton.mpr ⟨hallowed, harmless_keptAttrs hkept⟩
          split
          · next hvoid =>
            refine hs.write hpiece ?_ hs.named
            rw [nest, if_pos hvoid]
            rfl
          · next hvoid =>
            refine hs.write hpiece ?_ (List.forall_mem_cons.mpr ⟨hallowed, hs.named⟩)
            rw [nest, if_neg hvoid]
            rfl

/-- The ends that are written are those of open elements, the innermost first. -/
theorem closeUntil_spec (tag : String) (stack : List String) :
    nest stack (closeUntil tag stack).1 = some (closeUntil tag stack).2
      ∧ (∀ p ∈ (closeUntil tag stack).1, ∃ name ∈ stack, p = .close name)
      ∧ (closeUntil tag stack).2 ⊆ stack := by
  induction stack with
  | nil => exact ⟨rfl, fun p hp => absurd hp List.not_mem_nil, List.Subset.refl _⟩
  | cons top stack ih =>
    rw [closeUntil]
    split
    · refine ⟨?_, ?_, List.subset_cons_self _ _⟩
      · rw [nest_close]
        rfl
      · exact List.forall_mem_singleton.mpr ⟨_, List.mem_cons_self, rfl⟩
    · refine ⟨?_, ?_, List.subset_cons_of_subset _ ih.2.2⟩
      · rw [nest_close]
        exact ih.1
      · refine List.forall_mem_cons.mpr ⟨⟨_, List.mem_cons_self, rfl⟩, fun p hp => ?_⟩
        obtain ⟨name, hname, rfl⟩ := ih.2.1 p hp
        exact ⟨name, List.mem_cons_of_mem _ hname, rfl⟩

theorem good_endtag (hs : s.Good lib) (tag : String) : (handleEndtag s tag).Good lib := by
  unfold handleEndtag
  split
  · split
    · exact ⟨hs.harmless, hs.nested, hs.named⟩
    · exact hs
  · split
    · exact hs
    · obtain ⟨hnest, hclose, hsub⟩ := closeUntil_spec tag s.stack
      refine hs.write (fun p hp => ?_) hnest fun name hname => hs.named name (hsub hname)
      obtain ⟨name, hname, rfl⟩ := hclose p hp
      exact hs.named name hname

theorem good_data (hs : s.Good lib) (text : String) : (handleData s text).Good lib := by
  unfold handleData
  split
  · refine hs.write (fun p hp => ?_) (nest_chars _ _) hs.named
    obtain ⟨c, -, rfl⟩ := List.mem_map.mp hp
    trivial
  · exact hs

theorem good_handle (hs : s.Good lib) (event : Event) : (handle lib s event).Good lib := by
  cases event with
  | starttag tag attrs => exact good_openTag hs _ _ _
  | startendtag tag attrs => exact good_openTag hs _ _ _
  | endtag tag => exact good_endtag hs _
  | data text => exact good_data hs text
  | comment text => exact hs

theorem feed_append (before after : List Event) :
    feed lib (before ++ after) = after.foldl (handle lib) (feed lib before) :=
  List.foldl_append

theorem good_feed (events : List Event) : (feed lib events).Good lib := by
  induction events using List.reverseRecOn with
  | nil => exact good_init
  | append_singleton before event ih =>
    rw [feed_append]
    exact good_handle ih event

/-- What is written stays. -/
theorem out_handle (s : Cleaner) (event : Event) : s.out <+: (handle lib s event).out := by
  have hopen : ∀ tag attrs closingSlash,
      s.out <+: (openTag lib s tag attrs closingSlash).out := by
    intro tag attrs closingSlash
    unfold openTag
    split
    · split <;> exact List.prefix_rfl
    · split
      · split <;> exact List.prefix_rfl
      · split
        · exact List.prefix_rfl
        · split
          · exact List.prefix_rfl
          · split <;> exact List.prefix_append _ _
  cases event with
  | starttag tag attrs => exact hopen _ _ _
  | startendtag tag attrs => exact hopen _ _ _
  | endtag tag =>
    unfold handle handleEndtag
    dsimp only
    split
    · split <;> exact List.prefix_rfl
    · split
      · exact List.prefix_rfl
      · exact List.prefix_append _ _
  | data text =>
    unfold handle handleData
    dsimp only
    split
    · exact List.prefix_append _ _
    · exact List.prefix_rfl
  | comment text => exact List.prefix_rfl

/-- What is written of the first events is the beginning of what is written of all. -/
theorem markup_of_append (before after : List Event) :
    markup lib before <+: (feed lib (before ++ after)).close := by
  have hout : ∀ s : Cleaner, s.out <+: (after.foldl (handle lib) s).out := by
    induction after with
    | nil => exact fun s => List.prefix_rfl
    | cons event after ih => exact fun s => (out_handle s event).trans (ih _)
  rw [feed_append]
  exact (hout _).trans (List.prefix_append _ _)

/-- **The message is reduced to harmless pieces, well nested and closed.** -/
theorem close_spec (events : List Event) :
    (∀ p ∈ (feed lib events).close, Harmless lib p) ∧ Nested (feed lib events).close := by
  have hgood := @good_feed lib events
  constructor
  · refine List.forall_mem_append.mpr ⟨hgood.harmless, fun p hp => ?_⟩
    obtain ⟨name, hname, rfl⟩ := List.mem_map.mp hp
    exact hgood.named name hname
  · have hclose : ∀ stack : List String, nest stack (stack.map .close) = some [] := by
      intro stack
      induction stack with
      | nil => rfl
      | cons name rest ih =>
        rw [List.map_cons, nest_close]
        exact ih
    rw [Nested, Cleaner.close, nest_append, hgood.nested, Option.bind_some, hclose]

/-- White space around harmless pieces that are well nested can be taken away. -/
theorem stripped_spec (hharmless : ∀ p ∈ pieces, Harmless lib p) (hnested : Nested pieces) :
    ∃ lead mid trail, pieces = lead ++ mid ++ trail ∧ (∀ p ∈ lead, p.isBlank = true)
      ∧ (∀ p ∈ trail, p.isBlank = true) ∧ (∀ p ∈ mid, Harmless lib p) ∧ Nested mid
      ∧ strip (String.ofList (written pieces)) = String.ofList (written mid) := by
  obtain ⟨lead, mid, trail, rfl, hlead, htrail, hstrip⟩ :=
    @strip_flatMap _ write Piece.isBlank (fun _ => write_blank) (fun _ => write_ink) pieces
  refine ⟨lead, mid, trail, rfl, hlead, htrail, fun p hp => hharmless p (by simp [hp]), ?_, hstrip⟩
  rw [Nested, nest_append, nest_append, nest_blank _ hlead, Option.bind_some] at hnested
  obtain ⟨opened, hmid, hopened⟩ := Option.bind_eq_some_iff.mp hnested
  rw [nest_blank _ htrail] at hopened
  rw [Nested, hmid, hopened]

/-! ### The elements that are dropped -/

private theorem dropped_not_void : ∀ tag ∈ DROP_WITH_CONTENT, tag ∉ VOID_TAGS := by decide

/-- **A cleaner that drops an element** counts the tags of that name, and writes nothing. -/
theorem handle_of_skip (hskip : s.skip ≠ 0) (htag : s.skipTag ∉ VOID_TAGS) (event : Event) :
    (handle lib s event).out = s.out ∧ (handle lib s event).skipTag = s.skipTag
      ∧ (handle lib s event).skip = (if event.starts lib s.skipTag then s.skip + 1
        else if event.ends lib s.skipTag then s.skip - 1 else s.skip) := by
  have hopen : ∀ tag attrs closingSlash, openTag lib s tag attrs closingSlash
      = if tag = s.skipTag then { s with skip := s.skip + 1 } else s := by
    intro tag attrs closingSlash
    rw [openTag, if_pos hskip]
    by_cases heq : tag = s.skipTag
    · rw [if_pos ⟨heq, heq ▸ htag⟩, if_pos heq]
    · rw [if_neg fun h => heq h.1, if_neg heq]
  cases event with
  | starttag tag attrs =>
    simp only [handle, hopen, Event.starts, Event.ends, decide_eq_true_eq]
    split <;> exact ⟨rfl, rfl, rfl⟩
  | startendtag tag attrs =>
    simp only [handle, hopen, Event.starts, Event.ends, decide_eq_true_eq]
    split <;> exact ⟨rfl, rfl, rfl⟩
  | endtag tag =>
    simp only [handle, handleEndtag, if_pos hskip, Event.starts, Event.ends, decide_eq_true_eq]
    split <;> exact ⟨rfl, rfl, rfl⟩
  | data text =>
    rw [handle, handleData, if_neg hskip]
    exact ⟨rfl, rfl, rfl⟩
  | comment text => exact ⟨rfl, rfl, rfl⟩

/-- **A cleaner that drops nothing** goes on so, up to the start tag of an element to be dropped. -/
theorem handle_of_not_skip (hskip : s.skip = 0) (event : Event) :
    (event.drops lib = false ∧ (handle lib s event).skip = 0)
      ∨ ∃ tag attrs, event = .starttag tag attrs ∧ lib.lower tag ∈ DROP_WITH_CONTENT
        ∧ (handle lib s event).skip = 1 ∧ (handle lib s event).skipTag = lib.lower tag := by
  have hopen : ∀ tag attrs closingSlash, ¬(tag ∈ DROP_WITH_CONTENT ∧ closingSlash = false) →
      (openTag lib s tag attrs closingSlash).skip = 0 := by
    intro tag attrs closingSlash hnot
    rw [openTag, if_neg (not_not.mpr hskip)]
    split
    · next hdropped =>
      rw [if_neg fun h => hnot ⟨hdropped, h.2⟩]
      exact hskip
    · split
      · exact hskip
      · split
        · exact hskip
        · split <;> exact hskip
  cases event with
  | starttag tag attrs =>
    by_cases hdropped : lib.lower tag ∈ DROP_WITH_CONTENT
    · refine .inr ⟨tag, attrs, rfl, hdropped, ?_⟩
      rw [handle, openTag, if_neg (not_not.mpr hskip), if_pos hdropped,
        if_pos ⟨dropped_not_void _ hdropped, rfl⟩]
      exact ⟨rfl, rfl⟩
    · exact .inl ⟨decide_eq_false hdropped, hopen _ _ _ fun h => hdropped h.1⟩
  | startendtag tag attrs =>
    exact .inl ⟨rfl, hopen _ _ _ fun h => absurd h.2 (by decide)⟩
  | endtag tag =>
    refine .inl ⟨rfl, ?_⟩
    rw [handle, handleEndtag, if_neg (not_not.mpr hskip)]
    split <;> exact hskip
  | data text =>
    refine .inl ⟨rfl, ?_⟩
    rw [handle, handleData, if_pos hskip]
    exact hskip
  | comment text => exact .inl ⟨rfl, hskip⟩

/-- No event starts an element and ends one. -/
theorem ends_of_starts {event : Event} (h : event.starts lib tag = true) :
    event.ends lib tag = false := by
  cases event with
  | starttag | startendtag => rfl
  | endtag | data | comment => cases h

/-- What the cleaner is doing after some events: it drops nothing, or it is in an element that has
    started, and whose end tags do not balance its start tags yet. -/
def Phase (lib : Library) (events : List Event) (s : Cleaner) : Prop :=
  (s.skip = 0 ∧ Delimited lib events)
    ∨ ∃ front tag attrs content, events = front ++ Event.starttag tag attrs :: content
      ∧ Delimited lib front ∧ lib.lower tag ∈ DROP_WITH_CONTENT ∧ s.skipTag = lib.lower tag
      ∧ s.skip ≠ 0
      ∧ content.countP (Event.ends lib (lib.lower tag)) + s.skip
        = content.countP (Event.starts lib (lib.lower tag)) + 1
      ∧ ∀ part, part <+: content → part.countP (Event.ends lib (lib.lower tag))
        ≤ part.countP (Event.starts lib (lib.lower tag))

theorem phase_handle (h : Phase lib events s) (event : Event) :
    Phase lib (events ++ [event]) (handle lib s event) := by
  rcases h with ⟨hskip, hdelimited⟩ |
    ⟨front, tag, attrs, content, rfl, hfront, htag, hskipTag, hskip, hcount, hparts⟩
  · rcases handle_of_not_skip hskip event with ⟨hplain, hnone⟩ | ⟨tag, attrs, rfl, htag, hone, heq⟩
    · exact .inl ⟨hnone, hdelimited.plain hplain⟩
    · refine .inr ⟨events, tag, attrs, [], rfl, hdelimited, htag, heq, by omega, ?_, ?_⟩
      · rw [hone]
        rfl
      · intro part hpart
        rw [List.prefix_nil.mp hpart]
        exact Nat.le_refl _
  · obtain ⟨-, hsame, hnext⟩ := @handle_of_skip lib _ hskip
      (hskipTag ▸ dropped_not_void _ htag) event
    rw [hskipTag] at hnext hsame
    have hwhole := hparts content List.prefix_rfl
    -- the element goes on, unless this event is the end tag that balances its start tag
    by_cases hlast : event.ends lib (lib.lower tag) = true ∧ s.skip = 1
    · obtain ⟨hends, hone⟩ := hlast
      obtain ⟨name, rfl, hname⟩ : ∃ name, event = .endtag name
          ∧ lib.lower name = lib.lower tag := by
        cases event with
        | endtag name => exact ⟨name, rfl, of_decide_eq_true hends⟩
        | starttag | startendtag | data | comment => cases hends
      refine .inl ⟨?_, hfront.dropped htag ⟨hparts, by omega⟩ hname⟩
      rw [hnext, if_neg (by exact Bool.false_ne_true), if_pos hends, hone]
    · have hcounts : (content ++ [event]).countP (Event.ends lib (lib.lower tag))
            + (handle lib s event).skip
          = (content ++ [event]).countP (Event.starts lib (lib.lower tag)) + 1
            ∧ (handle lib s event).skip ≠ 0 := by
        rw [List.countP_append, List.countP_append, List.countP_singleton, List.countP_singleton,
          hnext]
        by_cases hstarts : event.starts lib (lib.lower tag) = true
        · rw [if_pos hstarts, if_pos hstarts, ends_of_starts hstarts, if_neg Bool.false_ne_true]
          omega
        · rw [if_neg hstarts, if_neg hstarts]
          by_cases hends : event.ends lib (lib.lower tag) = true
          · have hmore : s.skip ≠ 1 := fun hone => hlast ⟨hends, hone⟩
            rw [if_pos hends, if_pos hends]
            omega
          · rw [if_neg hends, if_neg hends]
            omega
      refine .inr ⟨front, tag, attrs, content ++ [event], ?_, hfront, htag, hsame, hcounts.2,
        hcounts.1, fun part hpart => ?_⟩
      · rw [List.append_assoc]
        rfl
      · rcases List.prefix_concat_iff.mp hpart with rfl | hpart
        · have := hcounts.2
          have := hcounts.1
          omega
        · exact hparts part hpart

theorem phase_feed (events : List Event) : Phase lib events (feed lib events) := by
  induction events using List.reverseRecOn with
  | nil => exact .inl ⟨rfl, .nil⟩
  | append_singleton before event ih =>
    rw [feed_append]
    exact phase_handle ih event

/-- In an element the cleaner counts what has started and not ended. -/
theorem skip_content (hskip : s.skip = 1) (htag : s.skipTag ∉ VOID_TAGS)
    (hparts : ∀ part, part <+: content → part.countP (Event.ends lib s.skipTag)
      ≤ part.countP (Event.starts lib s.skipTag)) :
    (content.foldl (handle lib) s).skipTag = s.skipTag
      ∧ content.countP (Event.ends lib s.skipTag) + (content.foldl (handle lib) s).skip
        = content.countP (Event.starts lib s.skipTag) + 1 := by
  induction content using List.reverseRecOn with
  | nil => exact ⟨rfl, by rw [List.foldl_nil, hskip]; rfl⟩
  | append_singleton before event ih =>
    obtain ⟨hsame, hcount⟩ := ih fun part hpart => hparts part
      (hpart.trans (List.prefix_append _ _))
    have hbefore := hparts before (List.prefix_append _ _)
    obtain ⟨-, hsame', hnext⟩ := @handle_of_skip lib
      (before.foldl (handle lib) s) (by omega) (hsame ▸ htag) event
    rw [hsame] at hsame' hnext
    rw [List.foldl_append, List.countP_append, List.countP_append, List.countP_singleton,
      List.countP_singleton]
    refine ⟨hsame', ?_⟩
    rw [List.foldl_cons, List.foldl_nil, hnext]
    by_cases hstarts : event.starts lib s.skipTag = true
    · rw [if_pos hstarts, if_pos hstarts, ends_of_starts hstarts, if_neg Bool.false_ne_true]
      omega
    · rw [if_neg hstarts, if_neg hstarts]
      by_cases hends : event.ends lib s.skipTag = true
      · rw [if_pos hends, if_pos hends]
        omega
      · rw [if_neg hends, if_neg hends]
        omega

/-- **The cleaner drops nothing where every element to be dropped is delimited by its own tags.** -/
theorem skip_eq_zero_iff (events : List Event) :
    (feed lib events).skip = 0 ↔ Delimited lib events := by
  constructor
  · intro hskip
    rcases @phase_feed lib events with ⟨-, hdelimited⟩ | ⟨_, _, _, _, -, -, -, -, hne, -⟩
    · exact hdelimited
    · exact absurd hskip hne
  · intro hdelimited
    induction hdelimited with
    | nil => rfl
    | @plain events event _ hplain ih =>
      rw [feed_append]
      rcases @handle_of_not_skip lib _ ih event with ⟨-, hnone⟩ | ⟨tag, attrs, rfl, htag, -⟩
      · exact hnone
      · exact absurd (decide_eq_true htag) (by rw [show decide _ = false from hplain]; decide)
    | @dropped events content tag name attrs _ htag hbalanced hname ih =>
      rw [List.append_assoc, feed_append, List.cons_append, List.foldl_cons, List.foldl_append]
      rcases @handle_of_not_skip lib _ ih (.starttag tag attrs) with
        ⟨hplain, -⟩ | ⟨tag', attrs', heq, -, hone, hskipTag⟩
      · exact absurd (decide_eq_true htag) (by rw [show decide _ = false from hplain]; decide)
      · obtain ⟨rfl, rfl⟩ := Event.starttag.inj heq
        have hvoid := dropped_not_void _ htag
        rw [← hskipTag] at hvoid hbalanced hname
        obtain ⟨hsame, hcount⟩ := @skip_content lib _ _ hone hvoid hbalanced.1
        have hlevel := hbalanced.2
        obtain ⟨-, -, hlast⟩ := @handle_of_skip lib
          (content.foldl (handle lib) (handle lib (feed lib events) (.starttag tag attrs)))
          (by omega) (hsame ▸ hvoid) (.endtag name)
        rw [List.foldl_cons, List.foldl_nil, hlast, hsame, if_neg (by exact Bool.false_ne_true),
          if_pos (show Event.ends lib _ (.endtag name) = true from decide_eq_true hname)]
        omega

/-- **A text is written where the cleaner drops nothing, and nowhere else.** -/
theorem markup_data {text : String} (hne : text ≠ "") :
    markup lib (before ++ [Event.data text]) = markup lib before ++ text.toList.map Piece.char
      ↔ Delimited lib before := by
  rw [← skip_eq_zero_iff, markup, feed_append, List.foldl_cons, List.foldl_nil, handle, handleData]
  split
  · next hskip => exact iff_of_true rfl hskip
  · next hskip =>
    refine iff_of_false (fun heq => hne ?_) hskip
    have hnil := List.map_eq_nil_iff.mp (List.self_eq_append_right.mp heq)
    exact String.toList_eq_nil_iff.mp hnil

/-! ### The result -/

/-- White space is written as it is. -/
theorem written_chars {cs : List Char} (h : ∀ c ∈ cs, isSpace c = true) :
    written (cs.map Piece.char) = cs := by
  induction cs with
  | nil => rfl
  | cons c cs ih =>
    obtain ⟨hc, hcs⟩ := List.forall_mem_cons.mp h
    have heq : escapeText c = [c] := by
      rcases escapeText_cases c with heq | hword
      · exact heq
      · exact absurd (hc.symm.trans (entities_ink _ hword).1) (by decide)
    rw [List.map_cons, written, List.flatMap_cons, write, heq]
    exact congrArg (List.cons c) (ih hcs)

variable (lib) (parse : String → List Event) (source : String)

/-- The result is what is written of the message, without the white space around it. -/
theorem clean_eq : clean lib parse source
    = strip (String.ofList (written (feed lib (message parse source)).close)) := by
  unfold clean message
  dsimp only
  split
  · next hblank =>
    -- white space is written as it is, and taken away as such
    have hfeed : (feed lib [.data (clip MAX_LENGTH source)]).close
        = (clip MAX_LENGTH source).toList.map Piece.char ++ [] := rfl
    rw [hfeed, List.append_nil, written_chars (isSpace_of_strip hblank), String.ofList_toList,
      hblank]
  · rfl

/-- **The result is harmless, well nested and closed, and shows every text outside the elements
    that are dropped, exactly where each such text stands behind elements to be dropped that are
    delimited by their own tags.** -/
theorem clean_iff : Clean lib (message parse source) (clean lib parse source)
    ↔ ∀ before text after, message parse source = before ++ Event.data text :: after → text ≠ "" →
      inside lib before = [] → Delimited lib before := by
  rw [clean_eq]
  generalize message parse source = events
  obtain ⟨hharmless, hnested⟩ := @close_spec lib events
  obtain ⟨lead, mid, trail, hpieces, hlead, htrail, hmid, hmidNested, hstrip⟩ :=
    stripped_spec hharmless hnested
  constructor
  · rintro ⟨-, _, _, -, hshown⟩ before text after heq hne hinside
    exact (markup_data hne).mp (hshown before text after heq hinside).1
  · intro hdelimited
    rw [hstrip]
    refine ⟨⟨mid, (String.toList_ofList).symm, hmid, hmidNested⟩, written lead, written trail, ?_,
      ?_⟩
    · have hblank : ∀ {l : List Piece}, (∀ p ∈ l, p.isBlank = true) →
          ∀ c ∈ written l, isSpace c = true := by
        intro l hl c hc
        obtain ⟨p, hp, hc⟩ := List.mem_flatMap.mp hc
        exact write_blank (hl p hp) c hc
      exact List.forall_mem_append.mpr ⟨hblank hlead, hblank htrail⟩
    · rintro before text after rfl hinside
      have hmarkup : markup lib (before ++ [Event.data text])
          = markup lib before ++ text.toList.map Piece.char := by
        by_cases hne : text = ""
        · subst hne
          rw [markup, feed_append, List.foldl_cons, List.foldl_nil, handle, handleData]
          split
          · rfl
          · exact (List.append_nil _).symm
        · exact (markup_data hne).mpr (hdelimited before text after rfl hne hinside)
      refine ⟨hmarkup, ?_⟩
      rw [String.toList_ofList, ← written_append, ← written_append, ← hpieces, ← hmarkup]
      obtain ⟨rest, hrest⟩ := @markup_of_append lib (before ++ [Event.data text]) after
      rw [List.append_assoc, List.singleton_append] at hrest
      rw [← hrest, written_append]
      exact List.prefix_append _ _

end

/-- Letters and digits of ASCII, and nothing that stands for a character. -/
def asciiLibrary : Library := ⟨simpleLowering, fun c => c.isAlphanum || c = '_', id⟩

example : clean asciiLibrary (fun _ => [.starttag "p" [("style", some "color: Red; url: x")],
    .data "a<b", .starttag "b" [], .endtag "p", .startendtag "script" [], .data "!"])
    "<p style='color: Red; url: x'>a&lt;b<b></p><script/>!"
    = "<p style=\"color:Red\">a&lt;b<b></b></p>!" := by decide +kernel

/-- **The text behind a link to a style sheet is lost.** -/
theorem not_clean_link : ¬Clean asciiLibrary
    (message (fun _ => [.starttag "link" [("href", some "a.css")], .data "hi"])
      "<link href='a.css'>hi")
    (clean asciiLibrary (fun _ => [.starttag "link" [("href", some "a.css")], .data "hi"])
      "<link href='a.css'>hi") := by
  have hmessage : message (fun _ => [.starttag "link" [("href", some "a.css")], .data "hi"])
      "<link href='a.css'>hi" = [.starttag "link" [("href", some "a.css")], .data "hi"] := by
    decide +kernel
  rw [hmessage]
  rintro ⟨-, _, _, -, hshown⟩
  have hlost := (hshown [.starttag "link" [("href", some "a.css")]] "hi" [] rfl
    (by decide +kernel)).1
  revert hlost
  decide +kernel

end WPanel.Notifications.HtmlClean
