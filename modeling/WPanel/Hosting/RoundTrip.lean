import WPanel.Hosting.Publishing

namespace WPanel.Hosting

open WPanel.Lib

/-!
# There and back

A website is copied into its staging copy, and the staging copy, untouched, is copied back.  The
two runs of the copier pass over the same names below the top, but the clearing between them does
not: it keeps names at the top only.

* `copier_create` — what a `create` that ends well leaves;
* `Remains` — the files of the website are as they were after both runs, `error_log`s aside;
* `Returns` — what the clearing takes is copied back, and nothing else is;
* `remains_iff` — the one holds exactly when the other does.
-/

section

variable {α : Type} {ans : CopierAnswers α} {exclude : List String}

/-- **A `create` that ends well** copied the website and wrote the configuration of the copy. -/
theorem copier_create {src dst : Path} {f : Folder α}
    (h : (copier ans false exclude src dst f).1 = .ok ()) :
    ∃ w s config, f.at? src = some w ∧ f.at? dst = some s ∧ src ≠ dst
      ∧ (whpCopy ans ⟨exclude, false⟩ true [] w s).1 = .ok ()
      ∧ (copier ans false exclude src dst f).2
        = (f.update dst fun g => (whpCopy ans ⟨exclude, false⟩ true [] w g).2).update dst
            fun g => g.put "wp-config.php" (.inl config) := by
  obtain ⟨_, hfolders, h1, hs1⟩ := Routine.bind_ok_inv h
  obtain ⟨_, -, h2, hs2⟩ := Routine.bind_ok_inv h1
  obtain ⟨_, -, h3, hs3⟩ := Routine.bind_ok_inv h2
  obtain ⟨source, hread, h4, hs4⟩ := Routine.bind_ok_inv h3
  obtain ⟨_, hcopy, h5, hs5⟩ := Routine.bind_ok_inv h4
  obtain ⟨_, -, h6, hs6⟩ := Routine.bind_ok_inv h5
  obtain ⟨hsrc, hdst, hne⟩ := ensure_eq_ok.mp hfolders
  obtain ⟨w, hw⟩ := Option.isSome_iff_exists.mp hsrc
  obtain ⟨g, hg⟩ := Option.isSome_iff_exists.mp hdst
  have hsource : source = w := by
    have hread : (f.at? src).getD .empty = source := Except.ok.inj hread
    rw [← hread, hw, Option.getD_some]
  subst hsource
  have hcopied : inFolder dst (whpCopy ans ⟨exclude, false⟩ true [] source) f
      = ((whpCopy ans ⟨exclude, false⟩ true [] source g).1,
        f.update dst fun g => (whpCopy ans ⟨exclude, false⟩ true [] source g).2) :=
    inFolder_of_at? hg
  have hat := Folder.at?_update hg fun g => (whpCopy ans ⟨exclude, false⟩ true [] source g).2
  have hwhole : copier ans false exclude src dst f = inFolder dst (writeConfig ans)
      (f.update dst fun g => (whpCopy ans ⟨exclude, false⟩ true [] source g).2) := by
    have hsame : (inFolder dst (whpCopy ans ⟨exclude, false⟩ true [] source) f).2
        = f.update dst fun g => (whpCopy ans ⟨exclude, false⟩ true [] source g).2 := by rw [hcopied]
    rw [← hsame]
    exact hs1.trans (hs2.trans (hs3.trans (hs4.trans (hs5.trans hs6))))
  rw [hwhole, inFolder_of_at? hat] at h
  cases hconfig : ans.config with
  | none =>
    rw [writeConfig, hconfig] at h
    cases h
  | some config =>
    refine ⟨source, g, config, hw, hg, hne, ?_, ?_⟩
    · rw [← show (inFolder dst (whpCopy ans ⟨exclude, false⟩ true [] source) f).1 = _ from
        congrArg Prod.fst hcopied]
      exact hcopy
    · rw [hwhole, inFolder_of_at? hat]
      simp only [writeConfig, hconfig]

/-! ### Both runs -/

/-- The folder of the staging copy is apart from the website, or in it under an excluded name. -/
def Placed (exclude : List String) (live root : Path) : Prop :=
  (¬live <+: root ∧ ¬root <+: live) ∨ ∃ name ∈ exclude, root = live ++ [name]

/-- A path of the website's own. -/
def Own (exclude : List String) : Path → Prop
  | [] => False
  | name :: _ => name ∉ exclude

/-- The website's own files are the same, `error_log`s aside. -/
def Remains (exclude : List String) (live : Path) (f f' : Folder α) : Prop :=
  ∀ r, Own exclude r → r.getLast? ≠ some "error_log" → f'.get (live ++ r) = f.get (live ++ r)

/-- What the clearing takes of the website `w` is copied back, and the folder `s` of the staging
    copy held nothing else that is copied. -/
structure Returns (exclude : List String) (w s : Folder α) : Prop where
  back : ∀ name rest, name ∉ exclude → w.get (name :: rest) ≠ none →
    (name :: rest).getLast? ≠ some "error_log" →
      keptOnPush exclude name = true ∨ ∀ m ∈ rest, skippedName m = false
  alone : ∀ r, Skips.Copies ⟨exclude, true⟩ true r → s.get r ≠ none → w.get r ≠ none

theorem copies_false_iff {sk : Skips} {rest : Path} :
    sk.Copies false rest ↔ ∀ m ∈ rest, skippedName m = false := by
  induction rest with
  | nil => simp [Skips.Copies]
  | cons m rest ih => simp [Skips.Copies, Skips.skips, ih]

/-- What is not kept is copied, where no name further down is passed over. -/
theorem copies_of_not_kept {name : String} {rest : Path} (h : keptOnPush exclude name = false)
    (hrest : ∀ m ∈ rest, skippedName m = false) :
    Skips.Copies ⟨exclude, true⟩ true (name :: rest) := by
  refine ⟨?_, copies_false_iff.mpr hrest⟩
  simp only [keptOnPush, clearKeeps, Bool.or_eq_false_iff, decide_eq_false_iff_not, List.mem_cons,
    List.not_mem_nil, not_or] at h
  simp [Skips.skips, skippedName, h]

/-- What is copied back was copied there. -/
theorem copies_create {r : Path} (h : Skips.Copies ⟨exclude, true⟩ true r) :
    Skips.Copies ⟨exclude, false⟩ true r := by
  cases r with
  | nil => trivial
  | cons name rest =>
    refine ⟨?_, copies_false_iff.mpr (copies_false_iff.mp h.2)⟩
    have hfirst := h.1
    simp only [Skips.skips, Bool.true_and, Bool.or_eq_false_iff] at hfirst ⊢
    simp [hfirst.1]

theorem own_of_copies {name : String} {rest : Path}
    (h : Skips.Copies ⟨exclude, true⟩ true (name :: rest)) :
    name ∉ exclude ∧ name ≠ "wp-config.php"
      ∧ (name :: rest).getLast? ≠ some "error_log" := by
  have hfirst := h.1
  simp only [Skips.skips, Bool.true_and, Bool.or_eq_false_iff, decide_eq_false_iff_not] at hfirst
  refine ⟨hfirst.1.1, hfirst.2, fun hlast => ?_⟩
  have hlog : skippedName "error_log" = true := by decide +kernel
  rcases List.mem_cons.mp (List.mem_of_getLast? hlast) with hname | hmem
  · rw [← hname, hlog] at hfirst
    simp at hfirst
  · rw [copies_false_iff.mp h.2 _ hmem] at hlog
    cases hlog

theorem not_prefix_of_own {live root r : Path} (hplaced : Placed exclude live root)
    (hr : Own exclude r) : ¬root <+: live ++ r := by
  intro h
  rcases hplaced with ⟨hroot, hlive⟩ | ⟨name, hname, rfl⟩
  · rcases List.prefix_or_prefix_of_prefix h (List.prefix_append live r) with h | h
    · exact hlive h
    · exact hroot h
  · rw [List.prefix_append_right_inj] at h
    cases r with
    | nil => exact hr.elim
    | cons m q => exact hr ((List.cons_prefix_cons.mp h).1 ▸ hname)

/-- The account after a `create` that ended well. -/
def afterCreate (ans : CopierAnswers α) (exclude : List String) (root : Path) (w : Folder α)
    (config : α) (f : Folder α) : Folder α :=
  (f.update root fun g => (whpCopy ans ⟨exclude, false⟩ true [] w g).2).update root
    fun g => g.put "wp-config.php" (.inl config)

variable {ans' : CopierAnswers α} {live root : Path} {f w s : Folder α} {config : α}

theorem at?_afterCreate (hs : f.at? root = some s) :
    (afterCreate ans exclude root w config f).at? root
      = some ((whpCopy ans ⟨exclude, false⟩ true [] w s).2.put "wp-config.php" (.inl config)) :=
  Folder.at?_update (Folder.at?_update hs _) _

/-- The website itself is not written. -/
theorem get_afterCreate {x : Path} (h : ¬root <+: x) :
    (afterCreate ans exclude root w config f).get x = f.get x := by
  rw [afterCreate, Folder.get_update_of_outside _ _ h, Folder.get_update_of_outside _ _ h]

theorem at?_of_afterCreate {x : Path} (hx : ¬root <+: x)
    (h : (afterCreate ans exclude root w config f).at? x ≠ none) : f.at? x ≠ none := by
  rcases Folder.at?_update_cases h with h | ⟨_, r, -, hr, -⟩
  · rcases Folder.at?_update_cases h with h | ⟨_, r, -, hr, -⟩
    · exact h
    · exact absurd ⟨r, hr.symm⟩ hx
  · exact absurd ⟨r, hr.symm⟩ hx

theorem exists_live (hplaced : Placed exclude live root) (hw : f.at? live = some w) :
    ∃ w', (afterCreate ans exclude root w config f).at? live = some w' := by
  have hroot : ¬root <+: live := by
    rcases hplaced with ⟨-, h⟩ | ⟨name, -, rfl⟩
    · exact h
    · exact fun h => absurd h.length_le (by simp)
  refine Option.ne_none_iff_exists'.mp ?_
  refine Folder.at?_update_ne_none _ hroot (Folder.at?_update_ne_none _ hroot ?_)
  rw [hw]
  exact nofun

/-- The clearing leaves the staging copy alone. -/
theorem at?_cleared_root (hans' : ans'.Obliging) (hplaced : Placed exclude live root)
    {f' : Folder α}
    (hlive : ∃ w', f'.at? live = some w') :
    (cleared ans' exclude live f').at? root = f'.at? root := by
  rcases hplaced with ⟨hroot, hlive'⟩ | ⟨name, hname, rfl⟩
  · exact Folder.at?_update_of_apart _ hroot hlive'
  · obtain ⟨w', hw'⟩ := hlive
    have hcleared : (cleared ans' exclude live f').at? live = some (clearLive ans' exclude w').2 :=
      Folder.at?_update hw' _
    have hfind := find?_clearLive hans' exclude w' name
    rw [if_pos (by simp [keptOnPush, hname])] at hfind
    rw [Folder.at?_append hcleared, Folder.at?_append hw', Folder.at?_congr hfind]

/-- **The way back**: the copier ends well, and leaves what was copied to, or what was kept. -/
theorem way_back (hans' : ans'.Obliging) (hplaced : Placed exclude live root) (hf : f.Tidy)
    (hw : f.at? live = some w) (hs : f.at? root = some s) (hne : live ≠ root)
    (hcopied : (whpCopy ans ⟨exclude, false⟩ true [] w s).1 = .ok ()) {name : String} {rest : Path}
    (hown : name ∉ exclude) :
    (copier ans' true exclude root live (afterCreate ans exclude root w config f)).2.get
        (live ++ name :: rest)
      = if Skips.Copies ⟨exclude, true⟩ true (name :: rest) then
          (w.get (name :: rest)).or (s.get (name :: rest))
        else if keptOnPush exclude name = true then w.get (name :: rest) else none := by
  have hlive : ∃ w', (afterCreate ans exclude root w config f).at? live = some w' :=
    exists_live hplaced hw
  obtain ⟨w', hw'⟩ := hlive
  have hwtidy : w.Tidy := hf.at? hw
  -- outside the staging copy the website is as it was
  have hget : ∀ m q, m ∉ exclude → w'.get (m :: q) = w.get (m :: q) := by
    intro m q hm
    rw [← Folder.get_append hw', get_afterCreate (not_prefix_of_own (r := m :: q) hplaced hm),
      Folder.get_append hw]
  have hat : ∀ m q, m ∉ exclude → w'.at? (m :: q) ≠ none → w.at? (m :: q) ≠ none := by
    intro m q hm h
    rw [← Folder.at?_append hw'] at h
    rw [← Folder.at?_append hw]
    exact at?_of_afterCreate (not_prefix_of_own (r := m :: q) hplaced hm) h
  have hsource : ((cleared ans' exclude live (afterCreate ans exclude root w config f)).at?
    root).getD
      .empty = (whpCopy ans ⟨exclude, false⟩ true [] w s).2.put "wp-config.php" (.inl config) := by
    rw [at?_cleared_root hans' hplaced ⟨w', hw'⟩, at?_afterCreate hs, Option.getD_some]
  have htidy : ((whpCopy ans ⟨exclude, false⟩ true [] w s).2.put "wp-config.php"
    (.inl config)).Tidy :=
    (tidy_whpCopy (hf.at? hs)).put _ fun _ h => by cases h
  have hcopy : ∀ m q, Skips.Copies ⟨exclude, true⟩ true (m :: q) →
      ((whpCopy ans ⟨exclude, false⟩ true [] w s).2.put "wp-config.php" (.inl config)).get (m :: q)
        = (w.get (m :: q)).or (s.get (m :: q)) := by
    intro m q h
    rw [Folder.get_put_of_ne _ _ _ (own_of_copies h).2.1,
      whpCopy_get hwtidy hcopied _ (copies_create h)]
  -- a clash would have stopped the way there
  have hclash : ∀ r, ¬Skips.Clashes ⟨exclude, true⟩ true
      ((whpCopy ans ⟨exclude, false⟩ true [] w s).2.put "wp-config.php" (.inl config))
      (clearLive ans' exclude w').2 r := by
    intro r hr
    cases r with
    | nil => exact not_clashes_nil _ _ _ hr
    | cons m q =>
      obtain ⟨hc, hr⟩ := hr
      have hm := (own_of_copies hc).1
      rcases hr with ⟨hsrc, hdst⟩ | ⟨hsrc, hdst⟩
      · rw [hcopy m q hc] at hsrc
        have hdst := hat m q hm (at?_of_clearLive hans' hdst)
        cases hwget : w.get (m :: q) with
        | some c => exact hdst (Folder.at?_eq_none_of_get (by rw [hwget]; exact nofun))
        | none =>
          rw [hwget, Option.none_or] at hsrc
          exact not_clashes hwtidy hcopied _ ⟨copies_create hc, .inr ⟨hdst, hsrc⟩⟩
      · have hdst := get_of_clearLive hans' hdst
        rw [hget m q hm] at hdst
        rcases at?_whpCopy hwtidy (Folder.at?_of_put_file hsrc) with h | ⟨-, h⟩
        · exact not_clashes hwtidy hcopied _ ⟨copies_create hc, .inl ⟨hdst, h⟩⟩
        · exact h (Folder.at?_eq_none_of_get hdst)
  rw [get_copier_push hans' (at?_afterCreate hs) hw' hne.symm, hsource]
  by_cases hc : Skips.Copies ⟨exclude, true⟩ true (name :: rest)
  · rw [if_pos hc, whpCopy_get htidy (whpCopy_ok hans' htidy hclash) _ hc, hcopy _ _ hc,
      get_clearLive hans', hget _ _ hown]
    cases w.get (name :: rest) with
    | some c => rfl
    | none => rw [ite_self, Option.none_or, Option.or_none]
  · rw [if_neg hc, whpCopy_other hc, get_clearLive hans', hget _ _ hown]

/-- **There and back, the website remains** exactly when what the clearing takes returns. -/
theorem remains_afterCreate (hans' : ans'.Obliging) (hplaced : Placed exclude live root)
    (hf : f.Tidy)
    (hw : f.at? live = some w) (hs : f.at? root = some s) (hne : live ≠ root)
    (hcopied : (whpCopy ans ⟨exclude, false⟩ true [] w s).1 = .ok ()) :
    Remains exclude live f
        (copier ans' true exclude root live (afterCreate ans exclude root w config f)).2
      ↔ Returns exclude w s := by
  constructor
  · intro h
    constructor
    · intro name rest hown hfile hlast
      by_contra hcon
      simp only [not_or, Bool.not_eq_true] at hcon
      have hsame := h (name :: rest) hown hlast
      rw [way_back hans' hplaced hf hw hs hne hcopied hown, Folder.get_append hw,
        if_neg fun hc => hcon.2 (copies_false_iff.mp hc.2), if_neg (by simp [hcon.1])] at hsame
      exact hfile hsame.symm
    · intro r hcopies hfile hnone
      cases r with
      | nil => exact hfile (Folder.get_nil s)
      | cons name rest =>
        obtain ⟨hown, -, hlast⟩ := own_of_copies hcopies
        have hsame := h (name :: rest) hown hlast
        rw [way_back hans' hplaced hf hw hs hne hcopied hown, Folder.get_append hw, if_pos hcopies,
          hnone, Option.none_or] at hsame
        exact hfile hsame
  · rintro ⟨hreturns, halone⟩ r hown hlast
    cases r with
    | nil => exact hown.elim
    | cons name rest =>
      rw [way_back hans' hplaced hf hw hs hne hcopied hown, Folder.get_append hw]
      cases hfile : w.get (name :: rest) with
      | some c =>
        rw [Option.some_or]
        rcases hreturns name rest hown (by rw [hfile]; exact nofun) hlast with hkept | hrest
        · rw [if_pos hkept, ite_self]
        · cases hkept : keptOnPush exclude name with
          | true => rw [if_pos rfl, ite_self]
          | false => rw [if_pos (copies_of_not_kept hkept hrest)]
      | none =>
        rw [Option.none_or, ite_self]
        split
        · next hcopies =>
          by_contra hne
          exact halone _ hcopies hne hfile
        · rfl

end

/-! ### The website and its staging copy -/

/-- `staging_domain`: the subdomain of a staging copy. -/
def Plan.stagingDomain (plan : Plan) (own : String) : String := "staging." ++ plan.siteDomain own

/-- The folder a staging copy is given. -/
def Plan.stagingRoot (plan : Plan) (own : String) : Path :=
  ["public_html", if own = "" then "staging" else plan.stagingDomain own]

private theorem placed_of_ne {exclude : List String} {folder name name' : String}
    (h : name' ≠ name) : Placed exclude [folder, name] [folder, name'] := by
  refine .inl ⟨fun hpre => ?_, fun hpre => ?_⟩
  · have heq := hpre.eq_of_length rfl
    exact h (by simpa using heq.symm)
  · have heq := hpre.eq_of_length rfl
    exact h (by simpa using heq)

/-- The list that both runs are given. -/
def Plan.spared (plan : Plan) (asked : DomainAnswers) (own : String) : List String :=
  others plan asked (plan.docrootPath own) (plan.stagingRoot own)

/-- The copier with action `create`, for the staging copy of a website. -/
def makeCopy {α : Type} (ans : CopierAnswers α) (plan : Plan) (asked : DomainAnswers)
    (own : String) : Copying α Unit :=
  copier ans false (plan.spared asked own) (plan.docrootPath own) (plan.stagingRoot own)

/-- The copier with action `push`, from the staging copy of a website. -/
def publishCopy {α : Type} (ans : CopierAnswers α) (plan : Plan) (asked : DomainAnswers)
    (own : String) : Copying α Unit :=
  copier ans true (plan.spared asked own) (plan.stagingRoot own) (plan.docrootPath own)

/-- The folder of a staging copy is on the list that the copier spares, or apart. -/
theorem placed_stagingRoot (plan : Plan) (asked : DomainAnswers) (own : String) :
    Placed (plan.spared asked own) (plan.docrootPath own) (plan.stagingRoot own) := by
  have hblank : lower (strip "") = "" := by decide +kernel
  by_cases h : lower (strip own) ≠ "" ∧ lower (strip own) ≠ lower plan.domain
  · have hlive : plan.docrootPath own = ["public_html", lower (strip own)] := by
      simp only [Plan.docrootPath]
      rw [if_pos h]
    have hown : own ≠ "" := fun h' => h.1 (by rw [h', hblank])
    have hsite : plan.siteDomain own = lower (strip own) := by
      rw [Plan.siteDomain, if_neg fun h' => h.1 (by rw [h']; decide +kernel)]
    have hroot : plan.stagingRoot own = ["public_html", "staging." ++ lower (strip own)] := by
      rw [Plan.stagingRoot, if_neg hown, Plan.stagingDomain, hsite]
    rw [hlive, hroot]
    refine placed_of_ne fun h' => ?_
    have hlen := congrArg (fun s => s.toList.length) h'
    simp only [String.toList_append, List.length_append] at hlen
    have hstaging : "staging.".toList.length = 8 := by decide
    omega
  · have hlive : plan.docrootPath own = ["public_html"] := by
      simp only [Plan.docrootPath]
      rw [if_neg h]
    obtain ⟨name, hname, hroot⟩ : ∃ name, name ≠ ""
      ∧ plan.stagingRoot own = ["public_html", name] := by
      refine ⟨_, ?_, rfl⟩
      split
      · decide
      · intro h'
        have hlen := congrArg (fun s => s.toList.length) h'
        simp [Plan.stagingDomain, String.toList_append] at hlen
    rw [Plan.spared, hlive, hroot]
    refine .inr ⟨name, ?_, rfl⟩
    simp [others, hname]

/-- **Making a staging copy and publishing it unchanged** leaves the files of the website as they
    were, `error_log`s aside, exactly when every file below a name that the copier passes over
    further down is under a name that the clearing keeps, and the folder of the staging copy held
    no file that the website lacks. -/
theorem remains_iff {α : Type} {ans ans' : CopierAnswers α} {plan : Plan} {asked : DomainAnswers}
    {own : String} {f w s : Folder α} (hans' : ans'.Obliging) (hf : f.Tidy)
    (hw : f.at? (plan.docrootPath own) = some w) (hs : f.at? (plan.stagingRoot own) = some s)
    (hcreate : (makeCopy ans plan asked own f).1 = .ok ()) :
    Remains (plan.spared asked own) (plan.docrootPath own) f
        (publishCopy ans' plan asked own (makeCopy ans plan asked own f).2).2
      ↔ Returns (plan.spared asked own) w s := by
  obtain ⟨w', s', config, hw', hs', hne, hcopied, hstate⟩ := copier_create hcreate
  rw [hw] at hw'
  rw [hs] at hs'
  cases hw'
  cases hs'
  rw [makeCopy, hstate]
  exact remains_afterCreate hans' (placed_stagingRoot plan asked own) hf hw hs hne hcopied

/-- A copier with no failing call. -/
def smoothCopier : CopierAnswers String where
  config := some "staging configuration"

theorem obliging_smoothCopier : smoothCopier.Obliging where
  connects := rfl
  removed _ := rfl
  made _ := rfl
  copied _ := rfl

/-- A website of two files, with an empty folder for its staging copy. -/
def plainFiles : Folder String :=
  .file "wp-config.php" "configuration" (.file "index.php" "page" (.sub "staging" .empty .empty))

/-- It remains as it is. -/
theorem remains_plainFiles :
    Remains (stagedPlan.spared unanswered "") (stagedPlan.docrootPath "")
      (.sub "public_html" plainFiles .empty)
      (publishCopy smoothCopier stagedPlan unanswered ""
        (makeCopy smoothCopier stagedPlan unanswered ""
          (.sub "public_html" plainFiles .empty)).2).2 := by
  refine (remains_iff (w := plainFiles) (s := .empty) obliging_smoothCopier (by decide)
    (by decide +kernel) (by decide +kernel) (by decide +kernel)).mpr ⟨?_, ?_⟩
  · intro name rest _ hfile _
    cases rest with
    | nil => exact .inr nofun
    | cons m q =>
      refine absurd ?_ hfile
      simp only [plainFiles, Folder.get_file_cons, Folder.get_sub_cons, Folder.get_empty]
      simp
  · exact fun r _ h => absurd (Folder.get_empty r) h

/-- A website with a rules file that the panel wrote among the must-use plugins. -/
def ruledFiles : Folder String :=
  .file "wp-config.php" "configuration" (.sub "staging" .empty (.sub "wp-content"
    (.sub "mu-plugins" (.file "whp-auto-updates.php" "rules" .empty) .empty) .empty))

/-- The rules file is lost. -/
theorem not_remains_ruledFiles :
    (makeCopy smoothCopier stagedPlan unanswered "" (.sub "public_html" ruledFiles .empty)).1
    = .ok ()
      ∧ ¬Remains (stagedPlan.spared unanswered "") (stagedPlan.docrootPath "")
        (.sub "public_html" ruledFiles .empty)
        (publishCopy smoothCopier stagedPlan unanswered ""
          (makeCopy smoothCopier stagedPlan unanswered ""
            (.sub "public_html" ruledFiles .empty)).2).2 := by
  refine ⟨by decide +kernel, fun h => ?_⟩
  have hown : "wp-content" ∉ stagedPlan.spared unanswered "" := by decide +kernel
  have hsame := h ["wp-content", "mu-plugins", "whp-auto-updates.php"] hown (by decide +kernel)
  revert hsame
  decide +kernel

end WPanel.Hosting
