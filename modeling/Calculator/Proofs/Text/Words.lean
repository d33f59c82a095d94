import Mathlib
import Calculator.Source.Span
import Calculator.Text.Blank
/-!
# Words of a text

The words of a text are its longest runs of characters that are not blank, each as
the span where it stands (`Text.IsWord`). Every text has them, in one order
(`Text.exists_laid`, `Text.Words.unique`). What `trim` leaves goes from the first of
them to the last (`Text.exists_trim`), and splitting at the first blank takes the
first one off (`Text.splitBlank?_of_gap`).
-/

namespace Calculator

namespace Text

variable {s t w gap front back rest after : List Char} {words : List Span} {span : Span}
variable {pos i : Nat} {c : Char}

/-! ## Runs of characters -/

/-- **A character that is not blank** stands at a position. -/
def Solid (s : List Char) (i : Nat) : Prop := ∃ c ∈ s[i]?, isBlank c = false

/-- **A word** is a run of them that cannot be extended on either side. -/
structure IsWord (s : List Char) (span : Span) : Prop where
  start_lt : span.start < span.stop
  solid : ∀ i, span.start ≤ i → i < span.stop → Solid s i
  begins : ∀ i, i + 1 = span.start → ¬ Solid s i
  ends : ¬ Solid s span.stop

/-- **The words of a text** in their order. -/
structure Words (s : List Char) (words : List Span) : Prop where
  ordered : words.Pairwise (·.start < ·.start)
  mem_iff : ∀ span, span ∈ words ↔ IsWord s span

/-- A text has its words in one order. -/
theorem Words.unique {words' : List Span} (h : Words s words) (h' : Words s words') :
    words = words' := by
  have hnodup {words : List Span} (h : words.Pairwise (·.start < ·.start)) : words.Nodup :=
    h.imp fun hlt => ne_of_apply_ne Span.start hlt.ne
  have hperm : words.Perm words' := by
    rw [List.perm_ext_iff_of_nodup (hnodup h.ordered) (hnodup h'.ordered)]
    intro span
    rw [h.mem_iff, h'.mem_iff]
  exact hperm.eq_of_pairwise (fun _ _ _ _ hlt hgt => absurd hlt hgt.not_gt) h.ordered h'.ordered

/-- Nothing solid stands behind the end of a text. -/
theorem Solid.lt_length (h : Solid s i) : i < s.length := by
  obtain ⟨c, hc, -⟩ := h
  exact (List.getElem?_eq_some_iff.1 hc).1

/-- **From the start of a word on** there are that word and those behind it. -/
theorem IsWord.from_start_iff {first : Span} (h : IsWord s first) :
    IsWord s span ∧ first.start ≤ span.start ↔
      span = first ∨ IsWord s span ∧ first.stop ≤ span.start := by
  constructor
  · rintro ⟨hspan, hle⟩
    rcases Nat.lt_or_ge span.start first.stop with hlt | hge
    · -- The two overlap, so neither goes on where the other begins or ends.
      left
      have hstart : span.start = first.start := by
        by_contra hne
        exact hspan.begins (span.start - 1) (by omega) (h.solid _ (by omega) (by omega))
      have hstop : span.stop = first.stop := by
        rcases Nat.lt_trichotomy span.stop first.stop with hless | heq | hmore
        · have := hspan.start_lt
          exact absurd (h.solid _ (by omega) hless) hspan.ends
        · exact heq
        · exact absurd (hspan.solid _ hlt.le hmore) h.ends
      cases span
      cases first
      exact congr (congrArg Span.mk hstart) hstop
    · exact .inr ⟨hspan, hge⟩
  · rintro (rfl | ⟨hspan, hle⟩)
    · exact ⟨h, le_rfl⟩
    · have := h.start_lt
      exact ⟨hspan, by omega⟩

/-- No word begins in a gap. -/
theorem IsWord.from_gap_iff {stop : Nat} (hle : pos ≤ stop)
    (hgap : ∀ i, pos ≤ i → i < stop → ¬ Solid s i) :
    IsWord s span ∧ pos ≤ span.start ↔ IsWord s span ∧ stop ≤ span.start := by
  refine and_congr_right fun hspan => ⟨fun hpos => ?_, hle.trans⟩
  by_contra hlt
  exact hgap _ hpos (by omega) (hspan.solid _ le_rfl hspan.start_lt)

/-- What stands between two texts stands there in all of them. -/
theorem getElem?_between (front t back : List Char) (h : front.length ≤ i)
    (h' : i < front.length + t.length) : (front ++ t ++ back)[i]? = t[i - front.length]? := by
  rw [List.append_assoc, List.getElem?_append_right h, List.getElem?_append_left (by omega)]

/-- A run without a blank is solid. -/
theorem solid_between (hw : ∀ c ∈ w, isBlank c = false) (front back : List Char)
    (h : front.length ≤ i) (h' : i < front.length + w.length) : Solid (front ++ w ++ back) i := by
  have hlt : i - front.length < w.length := by omega
  refine ⟨w[i - front.length], ?_, hw _ (List.getElem_mem hlt)⟩
  rw [getElem?_between front w back h h']
  exact List.getElem?_eq_getElem hlt

/-- A run of blanks is nowhere solid. -/
theorem not_solid_between (hgap : ∀ c ∈ gap, isBlank c) (front back : List Char)
    (h : front.length ≤ i) (h' : i < front.length + gap.length) :
    ¬ Solid (front ++ gap ++ back) i := by
  rintro ⟨c, hc, hsolid⟩
  rw [getElem?_between front gap back h h'] at hc
  rw [hgap c (List.mem_of_getElem? hc)] at hsolid
  cases hsolid

/-- The slice between two texts is what stands there. -/
theorem slice_between (front t back : List Char) :
    (Span.mk front.length (front.length + t.length)).slice (front ++ t ++ back) = t := by
  have htake : (front ++ t ++ back).take (front.length + t.length) = front ++ t := by
    rw [← List.length_append, List.take_left']
    rfl
  rw [Span.slice, htake, List.drop_left']
  rfl

/-! ## Texts without blanks around them -/

/-- **A text that neither begins nor ends with a blank.** -/
structure Tight (t : List Char) : Prop where
  head : ∀ c ∈ t.head?, isBlank c = false
  last : ∀ c ∈ t.getLast?, isBlank c = false

theorem tight_nil : Tight [] := ⟨nofun, nofun⟩

/-- What is left where blanks are dropped does not begin with one. -/
theorem not_isBlank_dropWhile (s : List Char) :
    ∀ c ∈ (s.dropWhile isBlank).head?, isBlank c = false := by
  intro c hc
  have hstop := List.head?_dropWhile_not isBlank s
  rwa [Option.mem_def.1 hc] at hstop

/-- No blanks are dropped where a text begins with none. -/
theorem dropWhile_eq_self (h : ∀ c ∈ t.head?, isBlank c = false) : t.dropWhile isBlank = t := by
  cases t with
  | nil => rfl
  | cons c t => rw [List.dropWhile_cons, h c rfl, if_neg Bool.false_ne_true]

/-- A word is tight. -/
theorem tight_of_word (hw : ∀ c ∈ w, isBlank c = false) : Tight w :=
  ⟨fun c hc => hw c (List.mem_of_mem_head? hc), fun c hc => hw c (List.mem_of_mem_getLast? hc)⟩

/-- **A tight text stays tight behind a word and a gap.** -/
theorem Tight.behind_word (ht : Tight rest) (hne : w ≠ []) (hw : ∀ c ∈ w, isBlank c = false)
    (hrest : rest ≠ []) : Tight (w ++ gap ++ rest) := by
  refine ⟨fun c hc => ?_, fun c hc => ?_⟩
  · rw [List.append_assoc, List.head?_append_of_ne_nil _ hne] at hc
    exact hw c (List.mem_of_mem_head? hc)
  · rw [List.getLast?_append_of_ne_nil _ hrest] at hc
    exact ht.last c hc

/-- **Trimming drops the blanks around a tight text**, and nothing else. -/
theorem trim_between (front back : List Char) (hfront : ∀ c ∈ front, isBlank c) (ht : Tight t)
    (hback : ∀ c ∈ back, isBlank c) : trim (front ++ t ++ back) = t := by
  rw [trim, trimStart, List.append_assoc, List.dropWhile_append_of_pos hfront]
  have hdrop (u : List Char) (hu : ∀ c ∈ u.head?, isBlank c = false) {v : List Char}
      (hv : ∀ c ∈ v, isBlank c) : (u ++ v).dropWhile isBlank = if u = [] then [] else u ++ v := by
    cases u with
    | nil => exact List.dropWhile_eq_nil_iff.2 hv
    | cons c u => exact dropWhile_eq_self (by simpa using hu)
  rw [hdrop t ht.head hback]
  split_ifs with hnil
  · rw [hnil]
    rfl
  · rw [trimEnd, List.reverse_append, List.dropWhile_append_of_pos (by simpa using hback),
      dropWhile_eq_self (by simpa using ht.last), List.reverse_reverse]

/-- A tight text has no blanks to drop. -/
theorem Tight.trim_eq (ht : Tight t) : trim t = t := by
  have htrim := trim_between [] [] nofun ht nofun
  rwa [List.nil_append, List.append_nil] at htrim

/-- **A text is a tight one between blanks.** -/
theorem exists_trim (s : List Char) : ∃ front back, s = front ++ trim s ++ back ∧
    (∀ c ∈ front, isBlank c) ∧ (∀ c ∈ back, isBlank c) ∧ Tight (trim s) := by
  have hend (u : List Char) : ∃ back, u = trimEnd u ++ back ∧ ∀ c ∈ back, isBlank c := by
    refine ⟨(u.reverse.takeWhile isBlank).reverse, ?_, fun c hc => ?_⟩
    · rw [trimEnd, ← List.reverse_append, List.takeWhile_append_dropWhile, List.reverse_reverse]
    · exact List.mem_takeWhile_imp (List.mem_reverse.1 hc)
  obtain ⟨back, hsplit, hback⟩ := hend (trimStart s)
  refine ⟨s.takeWhile isBlank, back, ?_, fun c => List.mem_takeWhile_imp, hback, ?_, ?_⟩
  · rw [List.append_assoc, trim, ← hsplit]
    exact List.takeWhile_append_dropWhile.symm
  · intro c hc
    refine not_isBlank_dropWhile s c ?_
    obtain ⟨rest, hrest⟩ := List.head?_eq_some_iff.1 hc
    show (trimStart s).head? = some c
    rw [hsplit, ← trim, hrest]
    rfl
  · intro c hc
    rw [trim, trimEnd, List.getLast?_reverse] at hc
    exact not_isBlank_dropWhile _ c hc

theorem tight_trim (s : List Char) : Tight (trim s) := by
  obtain ⟨-, -, -, -, -, htight⟩ := exists_trim s
  exact htight

/-- **Blanks around a text make no difference** once it is trimmed. -/
theorem trim_pad (hfront : ∀ c ∈ front, isBlank c) (hback : ∀ c ∈ back, isBlank c)
    (s : List Char) : trim (front ++ s ++ back) = trim s := by
  obtain ⟨before, behind, hsplit, hbefore, hbehind, htight⟩ := exists_trim s
  have hwhole : front ++ s ++ back = front ++ before ++ trim s ++ (behind ++ back) := by
    conv_lhs => rw [hsplit]
    simp only [List.append_assoc]
  rw [hwhole]
  exact trim_between _ _ (List.forall_mem_append.2 ⟨hfront, hbefore⟩) htight
    (List.forall_mem_append.2 ⟨hbehind, hback⟩)

/-! ## Words and gaps -/

/-- **A text as words with gaps between them**, each word as the span it has if the
text stands at a position. -/
inductive Laid : Nat → List Char → List Span → Prop
  | word {pos : Nat} {w : List Char} : w ≠ [] → (∀ c ∈ w, isBlank c = false) →
      Laid pos w [⟨pos, pos + w.length⟩]
  | cons {pos : Nat} {w gap rest : List Char} {words : List Span} :
      w ≠ [] → (∀ c ∈ w, isBlank c = false) → gap ≠ [] → (∀ c ∈ gap, isBlank c) →
      Laid (pos + w.length + gap.length) rest words →
      Laid pos (w ++ gap ++ rest) (⟨pos, pos + w.length⟩ :: words)

namespace Laid

theorem ne_nil (h : Laid pos t words) : t ≠ [] := by
  cases h with
  | word hw => exact hw
  | cons hw => simp [hw]

theorem words_ne_nil (h : Laid pos t words) : words ≠ [] := by
  cases h <;> exact List.cons_ne_nil _ _

/-- The first word is what the text begins with. -/
theorem head?_start (h : Laid pos t words) : words.head?.map Span.start = some pos := by
  cases h <;> rfl

/-- The last word is what it ends with. -/
theorem getLast?_stop (h : Laid pos t words) :
    words.getLast?.map Span.stop = some (pos + t.length) := by
  induction h with
  | word => rfl
  | @cons pos w gap rest words hw _ _ _ hrest ih =>
    rw [List.getLast?_cons, List.getLast?_eq_some_getLast hrest.words_ne_nil] at *
    rw [Option.getD_some, ih]
    simp only [List.length_append, Nat.add_assoc]

/-- Such a text is tight. -/
theorem tight (h : Laid pos t words) : Tight t := by
  induction h with
  | word _ hw => exact tight_of_word hw
  | cons hne hw _ _ hrest ih => exact ih.behind_word hne hw hrest.ne_nil

/-- **Its spans are the words from its position on**, if blanks alone stand behind it
and no word goes on into it. -/
theorem mem_iff (h : Laid pos t words) (hs : s = front ++ t ++ back) (hpos : pos = front.length)
    (hbegins : ∀ i, i + 1 = pos → ¬ Solid s i) (hback : ∀ c ∈ back, isBlank c) :
    span ∈ words ↔ IsWord s span ∧ pos ≤ span.start := by
  induction h generalizing front with
  | @word pos w hne hw =>
    subst hpos
    have hlength : 0 < w.length := List.length_pos_of_ne_nil hne
    have hbehind : ∀ i, front.length + w.length ≤ i → ¬ Solid s i := by
      intro i hi hsolid
      have hlt := hsolid.lt_length
      have hblank := not_solid_between hback (front ++ w) [] (i := i)
      rw [List.append_nil, ← hs] at hblank
      rw [hs, List.length_append, List.length_append] at hlt
      rw [List.length_append] at hblank
      exact hblank hi (by omega) hsolid
    have hword : IsWord s ⟨front.length, front.length + w.length⟩ := by
      refine ⟨?_, fun i hi hi' => hs ▸ solid_between hw front back hi hi', hbegins,
        hbehind _ le_rfl⟩
      show front.length < front.length + w.length
      omega
    rw [hword.from_start_iff, List.mem_singleton]
    exact (or_iff_left fun ⟨hspan, hle⟩ =>
      hbehind _ hle (hspan.solid _ le_rfl hspan.start_lt)).symm
  | @cons pos w gap rest words hne hw hgapne hgap _ ih =>
    subst hpos
    have hlength : 0 < w.length := List.length_pos_of_ne_nil hne
    have hgaplength : 0 < gap.length := List.length_pos_of_ne_nil hgapne
    have hsplit : s = front ++ w ++ (gap ++ rest ++ back) := by
      simp only [hs, List.append_assoc]
    have hsplit' : s = front ++ w ++ gap ++ (rest ++ back) := by
      simp only [hs, List.append_assoc]
    have hgaps : ∀ i, front.length + w.length ≤ i → i < front.length + w.length + gap.length →
        ¬ Solid s i := by
      intro i hi hi'
      rw [← List.length_append] at hi hi'
      rw [hsplit']
      exact not_solid_between hgap (front ++ w) (rest ++ back) hi hi'
    have hword : IsWord s ⟨front.length, front.length + w.length⟩ := by
      refine ⟨?_, fun i hi hi' => hsplit ▸ solid_between hw front _ hi hi', hbegins,
        hgaps _ le_rfl (Nat.lt_add_of_pos_right hgaplength)⟩
      show front.length < front.length + w.length
      omega
    have hrests : s = (front ++ w ++ gap) ++ rest ++ back := by
      simp only [hs, List.append_assoc]
    have hrest : span ∈ words ↔
        IsWord s span ∧ front.length + w.length + gap.length ≤ span.start :=
      ih hrests (by simp only [List.length_append]) fun i hi => hgaps i (by omega) (by omega)
    rw [hword.from_start_iff, List.mem_cons, hrest,
      IsWord.from_gap_iff (Nat.le_add_right _ _) hgaps]

/-- The words follow each other. -/
theorem ordered (h : Laid pos t words) :
    words.Pairwise (·.start < ·.start) ∧ ∀ span ∈ words, pos ≤ span.start := by
  induction h with
  | word => simp
  | @cons pos w gap rest words hne _ _ _ _ ih =>
    obtain ⟨hordered, hbehind⟩ := ih
    have hlength : 0 < w.length := List.length_pos_of_ne_nil hne
    refine ⟨List.pairwise_cons.2 ⟨fun span hspan => ?_, hordered⟩,
      List.forall_mem_cons.2 ⟨le_rfl, fun span hspan => ?_⟩⟩
    · have := hbehind span hspan
      show pos < span.start
      omega
    · have := hbehind span hspan
      omega

/-- **It is laid out as the words of the text** it stands in between blanks. -/
theorem words_between (front back : List Char) (h : Laid front.length t words)
    (hfront : ∀ c ∈ front, isBlank c) (hback : ∀ c ∈ back, isBlank c) :
    Words (front ++ t ++ back) words := by
  have hblank : ∀ i, 0 ≤ i → i < front.length → ¬ Solid (front ++ t ++ back) i := by
    intro i _ hi
    rw [List.append_assoc]
    exact not_solid_between hfront [] (t ++ back) (Nat.zero_le _) (by simpa using hi)
  refine ⟨h.ordered.1, fun span => ?_⟩
  rw [h.mem_iff rfl rfl (fun i hi => hblank i (Nat.zero_le _) (by omega)) hback,
    ← IsWord.from_gap_iff (Nat.zero_le _) hblank]
  exact and_iff_left (Nat.zero_le _)

end Laid

/-- A tight text is one word, or a word and a gap before a shorter tight text. -/
theorem Tight.cases_word (ht : Tight t) (hne : t ≠ []) :
    (∀ c ∈ t, isBlank c = false) ∨ ∃ w gap rest, t = w ++ gap ++ rest ∧
      w ≠ [] ∧ (∀ c ∈ w, isBlank c = false) ∧ gap ≠ [] ∧ (∀ c ∈ gap, isBlank c) ∧
      rest ≠ [] ∧ Tight rest := by
  have hw : ∀ c ∈ t.takeWhile (!isBlank ·), isBlank c = false := fun c hc => by
    simpa using List.mem_takeWhile_imp hc
  have hsplit : t.takeWhile (!isBlank ·) ++ t.dropWhile (!isBlank ·) = t :=
    List.takeWhile_append_dropWhile
  have hwne : t.takeWhile (!isBlank ·) ≠ [] := by
    obtain ⟨c, t, rfl⟩ := List.exists_cons_of_ne_nil hne
    simp [ht.head c rfl]
  have hstop := List.head?_dropWhile_not (!isBlank ·) t
  generalize t.takeWhile (!isBlank ·) = w at hw hsplit hwne
  generalize t.dropWhile (!isBlank ·) = behind at hsplit hstop
  subst hsplit
  cases behind with
  | nil => exact .inl (by simpa using hw)
  | cons b behind =>
    have hb : isBlank b := by simpa using hstop
    have hlast : ∀ c ∈ (b :: behind).getLast?, isBlank c = false := by
      intro c hc
      exact ht.last c (by rwa [List.getLast?_append_of_ne_nil _ (List.cons_ne_nil _ _)])
    have hrest : (b :: behind).dropWhile isBlank ≠ [] := by
      intro hnil
      have hblank :=
        List.dropWhile_eq_nil_iff.1 hnil _ (List.getLast_mem (List.cons_ne_nil b behind))
      rw [hlast _ (List.getLast?_eq_some_getLast (List.cons_ne_nil b behind))] at hblank
      cases hblank
    have hparts : (b :: behind).takeWhile isBlank ++ (b :: behind).dropWhile isBlank =
        b :: behind := List.takeWhile_append_dropWhile
    refine .inr ⟨w, (b :: behind).takeWhile isBlank, (b :: behind).dropWhile isBlank, ?_, hwne, hw,
      by simp [hb], fun c hc => List.mem_takeWhile_imp hc, hrest, not_isBlank_dropWhile _, ?_⟩
    · rw [List.append_assoc, hparts]
    · rwa [← hparts, List.getLast?_append_of_ne_nil _ hrest] at hlast

/-- **Every tight text is laid out**, if there is one at all. -/
theorem exists_laid (pos : Nat) (ht : Tight t) (hne : t ≠ []) : ∃ words, Laid pos t words := by
  -- On the length of the text: its first word and the gap behind it are taken off.
  induction hlength : t.length using Nat.strong_induction_on generalizing t pos with
  | _ n ih =>
    rcases ht.cases_word hne with hw | ⟨w, gap, rest, rfl, hwne, hw, hgapne, hgap, hrestne, hrest⟩
    · exact ⟨_, .word hne hw⟩
    · have hpositive : 0 < w.length := List.length_pos_of_ne_nil hwne
      have hshorter : rest.length < n := by
        rw [← hlength, List.length_append, List.length_append]
        omega
      obtain ⟨words, hwords⟩ :=
        ih rest.length hshorter (pos + w.length + gap.length) hrest hrestne rfl
      exact ⟨_, .cons hwne hw hgapne hgap hwords⟩

/-- A text of blanks has no words. -/
theorem words_of_blank (h : ∀ c ∈ s, isBlank c) : Words s [] := by
  refine ⟨.nil, fun span => iff_of_false List.not_mem_nil fun hspan => ?_⟩
  have hsolid := hspan.solid _ le_rfl hspan.start_lt
  have hblank := not_solid_between h [] [] (Nat.zero_le _) (by simpa using hsolid.lt_length)
  rw [List.nil_append, List.append_nil] at hblank
  exact hblank hsolid

/-! ## Taking the first word off -/

/-- A word is not split. -/
theorem splitBlank?_of_word (hw : ∀ c ∈ w, isBlank c = false) : splitBlank? w = none := by
  have hnone : w.dropWhile (!isBlank ·) = [] :=
    List.dropWhile_eq_nil_iff.2 fun c hc => by simp [hw c hc]
  rw [splitBlank?, hnone]

/-- **A tight text is split behind its first word**, and what is left goes from the
second word to the last. -/
theorem splitBlank?_of_gap (hw : ∀ c ∈ w, isBlank c = false) (hne : gap ≠ [])
    (hgap : ∀ c ∈ gap, isBlank c) (ht : Tight rest) :
    ∃ after, splitBlank? (w ++ gap ++ rest) = some (w, after) ∧ trim after = rest := by
  obtain ⟨b, gap, rfl⟩ := List.exists_cons_of_ne_nil hne
  obtain ⟨hb, hgap⟩ := List.forall_mem_cons.1 hgap
  have hword : ∀ c ∈ w, (!isBlank c) = true := fun c hc => by simp [hw c hc]
  refine ⟨gap ++ rest, ?_, ?_⟩
  · rw [splitBlank?, List.append_assoc, List.dropWhile_append_of_pos hword,
      List.takeWhile_append_of_pos hword]
    simp [hb]
  · have htrim := trim_between gap [] hgap ht nofun
    rwa [List.append_nil] at htrim

/-- So something is always left behind the first word. -/
theorem trim_ne_nil_of_split (ht : Tight t) (h : splitBlank? t = some (w, after)) :
    trim after ≠ [] := by
  by_cases hne : t = []
  · subst hne
    cases h
  rcases ht.cases_word hne with hw | ⟨w', gap, rest, rfl, -, hw, hgapne, hgap, hrestne, hrest⟩
  · rw [splitBlank?_of_word hw] at h
    cases h
  · obtain ⟨after', hsplit, htrim⟩ := splitBlank?_of_gap hw hgapne hgap hrest
    rw [hsplit] at h
    cases h
    rwa [htrim]

end Text

end Calculator
