import FileSelection.Proofs.Glob.Subtree

/-!
# Patterns below a base

A pattern with literal text and a slash before it covers the text, the slash and what the pattern
covers.  The patterns for everything turn into patterns of a subtree meanwhile.
-/

namespace FileSelection.Glob

open FileSelection.Regex FileSelection.Text

variable {same : Char → Char → Prop} {token : Char} {word run base pattern path : List Char}

/-! ## Literal runs -/

theorem length_of_tokenCovers (htoken : token ≠ '*') (h : TokenCovers same '/' token word) :
    word.length = 1 := by
  unfold TokenCovers at h
  split at h
  · exact absurd rfl htoken
  · obtain ⟨c, rfl⟩ := h
    rfl
  · obtain ⟨c, rfl, -⟩ := h
    rfl
  · obtain ⟨c, rfl, -⟩ := h
    rfl

theorem tokenCovers_self (hsame : ∀ c, same c c) (htoken : token ≠ '*') :
    TokenCovers same '/' token [token] := by
  unfold TokenCovers
  split
  · exact absurd rfl htoken
  · exact ⟨_, rfl⟩
  · exact ⟨_, rfl, hsame _⟩
  · exact ⟨_, rfl, hsame _⟩

theorem length_of_runCovers (hrun : '*' ∉ run) (h : RunCovers same '/' run word) :
    word.length = run.length := by
  induction h with
  | nil => rfl
  | cons htoken _ ih =>
      rw [List.mem_cons, not_or] at hrun
      rw [List.length_append, length_of_tokenCovers (Ne.symm hrun.1) htoken, ih hrun.2,
        List.length_cons, Nat.add_comm]

theorem runCovers_self (hsame : ∀ c, same c c) (hrun : '*' ∉ run) :
    RunCovers same '/' run run := by
  induction run with
  | nil => exact .nil
  | cons token run ih =>
      rw [List.mem_cons, not_or] at hrun
      exact .cons (tokenCovers_self hsame (Ne.symm hrun.1)) (ih hrun.2)

/-! ## Text before a pattern -/

theorem not_mark_prefix_of_not_mem {text rest : List Char} (hne : text ≠ []) (htext : '*' ∉ text) :
    ¬ "**/".toList <+: text ++ rest := by
  cases text with
  | nil => exact absurd rfl hne
  | cons c text =>
      intro h
      obtain ⟨rfl, -⟩ := List.cons_prefix_cons.1 h
      apply htext
      apply List.mem_cons_self

theorem runsCover_literal_append_iff {text : List Char} (hrun : '*' ∉ run) :
    RunsCover same '/' (splitAt "**/".toList (run ++ text)) word ↔
      ∃ front back, word = front ++ back ∧ RunCovers same '/' run front ∧
        RunsCover same '/' (splitAt "**/".toList text) back := by
  apply runsCover_splitAt_append
  intro tail htail hne
  exact not_mark_prefix_of_not_mem hne fun hmem => hrun (htail.subset hmem)

theorem covers_behind_literal_iff {text : List Char} {ending : Ending} (hsame : ∀ c, same c c)
    (hrun : '*' ∉ run) :
    (∃ front back, run ++ path = front ++ back ∧
      RunsCover same '/' (splitAt "**/".toList (run ++ text)) front ∧
        EndingCovers same '/' ending back) ↔
    ∃ front back, path = front ++ back ∧ RunsCover same '/' (splitAt "**/".toList text) front ∧
      EndingCovers same '/' ending back := by
  simp only [runsCover_literal_append_iff hrun]
  constructor
  · rintro ⟨_, back, hpath, ⟨front, middle, rfl, hfront, hmiddle⟩, hback⟩
    rw [List.append_assoc] at hpath
    obtain ⟨rfl, rfl⟩ := List.append_inj hpath (length_of_runCovers hrun hfront).symm
    exact ⟨middle, back, rfl, hmiddle, hback⟩
  · rintro ⟨front, back, rfl, hfront, hback⟩
    exact ⟨run ++ front, back, by simp, ⟨run, front, rfl, runCovers_self hsame hrun, hfront⟩, hback⟩

theorem isEverything_prefixed (hbase : '*' ∉ base) :
    isEverything (base ++ '/' :: pattern) = false := by
  cases base with
  | nil => simp [isEverything]
  | cons c base =>
      have hc : c ≠ '*' := by
        rintro rfl
        apply hbase
        apply List.mem_cons_self
      simp [isEverything, hc]

theorem isEverything_of_slash_cons_suffix {mark : List Char} (hmark : mark ∈ endings.map Prod.fst)
    (h : '/' :: pattern <:+ mark) : pattern = [] ∨ isEverything pattern = true := by
  simp only [endings, List.map_cons, List.map_nil, List.mem_cons, List.not_mem_nil,
    or_false] at hmark
  rcases hmark with rfl | rfl | rfl | rfl
  · have hpattern : pattern = [] ∨ pattern = "**/".toList := by
      simpa [List.suffix_cons_iff, or_comm] using h
    exact hpattern.imp_right fun hdeep => by simp [isEverything, hdeep]
  · have hpattern : pattern = "**".toList := by simpa [List.suffix_cons_iff] using h
    exact .inr (by simp [isEverything, hpattern])
  · exact .inl (by simpa [List.suffix_cons_iff] using h)
  · simp [List.suffix_cons_iff] at h

theorem suffix_of_suffix_prefixed {mark : List Char} (hne : pattern ≠ [])
    (hall : isEverything pattern = false) (hmark : mark ∈ endings.map Prod.fst)
    (h : mark <:+ base ++ '/' :: pattern) : mark <:+ pattern := by
  have hnot : ¬ '/' :: pattern <:+ mark := by
    intro hover
    rcases isEverything_of_slash_cons_suffix hmark hover with hnil | hall'
    · exact hne hnil
    · simp [hall] at hall'
  rcases List.suffix_or_suffix_of_suffix h (List.suffix_append base ('/' :: pattern)) with
    hwithin | hover
  · rcases List.suffix_cons_iff.1 hwithin with rfl | hwithin
    · exact absurd List.suffix_rfl hnot
    · exact hwithin
  · exact absurd hover hnot

theorem Strips.prefixed {marks : List (List Char × Ending)} {body : List Char} {ending : Ending}
    (h : Strips marks pattern body ending)
    (hmarks : ∀ mark ∈ marks.map Prod.fst, mark <:+ base ++ '/' :: pattern → mark <:+ pattern) :
    Strips marks (base ++ '/' :: pattern) (base ++ '/' :: body) ending := by
  induction h with
  | none => exact .none
  | @here mark body ending others =>
      have hwhole : base ++ '/' :: (body ++ mark) = base ++ '/' :: body ++ mark := by simp
      rw [hwhole]
      exact .here
  | later hnot _ ih =>
      rw [List.map_cons, List.forall_mem_cons] at hmarks
      exact .later (fun hsuffix => hnot (hmarks.1 hsuffix)) (ih hmarks.2)

theorem splitEnding_prefixed {body : List Char} {ending : Ending} (hne : pattern ≠ [])
    (hall : isEverything pattern = false) (hsplit : splitEnding pattern = (body, ending)) :
    splitEnding (base ++ '/' :: pattern) = (base ++ '/' :: body, ending) := by
  have hstrips : Strips endings pattern body ending := strips_iff.2 hsplit
  exact strips_iff.1 (hstrips.prefixed fun mark => suffix_of_suffix_prefixed hne hall)

theorem covers_prefixed_iff (hsame : ∀ c, same c c) (hbase : '*' ∉ base) (hne : pattern ≠ []) :
    Covers same '/' (base ++ '/' :: pattern) (base ++ '/' :: path) ↔ Covers same '/' pattern path := by
  cases hall : isEverything pattern with
  | true =>
      have hpattern : pattern = "**".toList ∨ pattern = "**/".toList := by
        simpa [isEverything] using hall
      have hdeep : ¬ "/**".toList <:+ base := fun hsuffix => hbase (hsuffix.subset (by decide))
      have hending : '/' :: pattern ∈ subtreeEndings := by
        rcases hpattern with rfl | rfl
        · decide
        · decide
      have hunmarked : ¬ "**/".toList <:+: base := fun hwithin => hbase (hwithin.subset (by decide))
      refine iff_of_true ?_ (hpattern.elim .inl fun h => .inr (.inl h))
      rw [covers_iff_of_ne (isEverything_prefixed hbase) (splitEnding_subtree hdeep hending)]
      refine ⟨base, '/' :: path, rfl, ?_, .inr ⟨'/', path, rfl, hsame '/'⟩⟩
      rw [splitAt_of_unmarked hunmarked, runsCover_singleton_iff]
      exact runCovers_self hsame hbase
  | false =>
      cases hsplit : splitEnding pattern with
      | mk body ending =>
          have hrun : '*' ∉ base ++ ['/'] := by simpa using hbase
          rw [covers_iff_of_ne (isEverything_prefixed hbase) (splitEnding_prefixed hne hall hsplit),
            covers_iff_of_ne hall hsplit]
          simpa using covers_behind_literal_iff hsame hrun

/-! ## Matchers -/

theorem accepts_prefixed {base pattern : String} (hbase : '*' ∉ base.toList) (hne : pattern ≠ "")
    (caseSensitive : Bool) (path : String) :
    (compiled (base ++ "/" ++ pattern) "/" caseSensitive).accepts (base ++ "/" ++ path) =
      (compiled pattern "/" caseSensitive).accepts path := by
  have hpattern : pattern.toList ≠ [] := by simpa using hne
  apply Bool.eq_iff_iff.2
  apply (accepts_compiled_iff (base ++ "/" ++ pattern) '/' caseSensitive _).trans
  apply Iff.trans _ (accepts_compiled_iff pattern '/' caseSensitive path).symm
  simpa using covers_prefixed_iff (standsFor_self caseSensitive) hbase hpattern

theorem any_accepts_prefixed {base : String} (hbase : '*' ∉ base.toList) (caseSensitive : Bool)
    {patterns : List String} (hpatterns : ∀ pattern ∈ patterns, pattern ≠ "") (path : String) :
    (patterns.any fun pattern =>
      (compiled (base ++ "/" ++ pattern) "/" caseSensitive).accepts (base ++ "/" ++ path)) =
        patterns.any fun pattern => (compiled pattern "/" caseSensitive).accepts path := by
  induction patterns with
  | nil => rfl
  | cons pattern patterns ih =>
      obtain ⟨hpattern, hrest⟩ := List.forall_mem_cons.1 hpatterns
      rw [List.any_cons, List.any_cons, accepts_prefixed hbase hpattern, ih hrest]

end FileSelection.Glob
