import Calculator.Proofs.Text.Words
import Calculator.Session.Command
/-!
# Commands by their words

The command of a line is decided by its words: by the first alone where there is one,
and by whether that is the word that assigns. What is not a word of its own in a
command goes from one word to the last, with the blanks between kept
(`Command.exists_followsWords`). So blanks around a line make no difference, and an
assignment holds a name that is a word and an expression without blanks around it.
-/

namespace Calculator

open Text

namespace Command

variable {line : String} {s t w gap front back rest : List Char} {words words' : List Span}
variable {pos : Nat} {command : Option Command}

/-- The text that a span holds. -/
def textAt (s : List Char) (span : Span) : String := .ofList (span.slice s)

/-- **The command follows the words** of a text. -/
structure FollowsWords (s : List Char) (words : List Span) (command : Option Command) : Prop where
  /-- No word asks for nothing. -/
  nothing : words = [] → command = some .nothing
  /-- A word that leaves has to stand alone. -/
  leave : ∀ word, words = [word] → textAt s word ∈ leaveWords → command = some .leave
  /-- So has the word that lists. -/
  listVariables : ∀ word, words = [word] → textAt s word = listWord →
    command = some .listVariables
  /-- The word that assigns needs two more. -/
  invalid : ∀ first, words.head? = some first → textAt s first = assignWord → words.length < 3 →
    command = none
  /-- With more, the second is the name, and the expression goes from the third to the last. -/
  assign : ∀ first name third later last, words = first :: name :: third :: later →
    words.getLast? = some last → textAt s first = assignWord →
    command = some (.assign (textAt s name) (textAt s ⟨third.start, last.stop⟩))
  /-- All else is an expression, which goes from the first word to the last. -/
  evaluate : ∀ first last, words.head? = some first → words.getLast? = some last →
    textAt s first ≠ assignWord →
    (words = [first] → textAt s first ∉ leaveWords ∧ textAt s first ≠ listWord) →
    command = some (.evaluate (textAt s ⟨first.start, last.stop⟩))

/-! ## What spans hold -/

/-- A span between two texts holds what stands there. -/
theorem textAt_between (front t back : List Char) :
    textAt (front ++ t ++ back) ⟨front.length, front.length + t.length⟩ = .ofList t :=
  congrArg String.ofList (slice_between front t back)

/-- So does the span of the first word of a text between two. -/
theorem textAt_first (front w gap rest back : List Char) :
    textAt (front ++ (w ++ gap ++ rest) ++ back) ⟨front.length, front.length + w.length⟩ =
      .ofList w := by
  have hword := textAt_between front w (gap ++ rest ++ back)
  simpa only [List.append_assoc] using hword

/-- **From the first word to the last stands the whole text** that they lay out. -/
theorem textAt_laid {first last : Span} (front back : List Char)
    (h : Laid front.length t words) (hfirst : words.head? = some first)
    (hlast : words.getLast? = some last) :
    textAt (front ++ t ++ back) ⟨first.start, last.stop⟩ = .ofList t := by
  have hstart := h.head?_start
  have hstop := h.getLast?_stop
  rw [hfirst, Option.map_some, Option.some.injEq] at hstart
  rw [hlast, Option.map_some, Option.some.injEq] at hstop
  rw [hstart, hstop]
  exact textAt_between front t back

/-! ## Lines by their layout -/

/-- A word alone is the first one. -/
theorem firstWord_of_word (hw : ∀ c ∈ w, isBlank c = false) : firstWord w = (w, []) := by
  rw [firstWord, splitBlank?_of_word hw]

/-- Behind the first word and its gap stands the rest. -/
theorem firstWord_of_gap (hw : ∀ c ∈ w, isBlank c = false) (hgapne : gap ≠ [])
    (hgap : ∀ c ∈ gap, isBlank c) (hrest : Tight rest) :
    firstWord (w ++ gap ++ rest) = (w, rest) := by
  obtain ⟨after, hsplit, htrim⟩ := splitBlank?_of_gap hw hgapne hgap hrest
  rw [firstWord, hsplit]
  exact congrArg (Prod.mk w) htrim

/-- A text is empty if it has no characters. -/
theorem ofList_ne_empty (h : w ≠ []) : String.ofList w ≠ "" := by
  rwa [Ne, ← String.toList_inj, String.toList_ofList]

/-- **A line of one word** is what the word says. -/
theorem ofLine?_of_word (hline : trim line.toList = w) (hne : w ≠ [])
    (hw : ∀ c ∈ w, isBlank c = false) :
    ofLine? line =
      if String.ofList w ∈ leaveWords then some .leave
      else if String.ofList w = listWord then some .listVariables
      else if String.ofList w = assignWord then none
      else some (.evaluate (.ofList w)) := by
  rw [ofLine?, hline, firstWord_of_word hw]
  simp only [if_neg (ofList_ne_empty hne), and_true]
  rfl

/-- **A line of more words** assigns or is an expression. -/
theorem ofLine?_of_gap (hline : trim line.toList = w ++ gap ++ rest) (hne : w ≠ [])
    (hw : ∀ c ∈ w, isBlank c = false) (hgapne : gap ≠ []) (hgap : ∀ c ∈ gap, isBlank c)
    (hrestne : rest ≠ []) (hrest : Tight rest) :
    ofLine? line =
      if String.ofList w = assignWord then ofAssignment? rest
      else some (.evaluate (.ofList (w ++ gap ++ rest))) := by
  rw [ofLine?, hline, firstWord_of_gap hw hgapne hgap hrest]
  simp only [if_neg (ofList_ne_empty hne), hrestne, and_false, if_false]

/-- A name alone is no assignment. -/
theorem ofAssignment?_of_word (hw : ∀ c ∈ w, isBlank c = false) : ofAssignment? w = none := by
  rw [ofAssignment?, splitBlank?_of_word hw]

/-- **A name and more is one**, of all that stands behind the gap. -/
theorem ofAssignment?_of_gap (hw : ∀ c ∈ w, isBlank c = false) (hgapne : gap ≠ [])
    (hgap : ∀ c ∈ gap, isBlank c) (hrestne : rest ≠ []) (hrest : Tight rest) :
    ofAssignment? (w ++ gap ++ rest) = some (.assign (.ofList w) (.ofList rest)) := by
  obtain ⟨after, hsplit, htrim⟩ := splitBlank?_of_gap hw hgapne hgap hrest
  rw [ofAssignment?, hsplit]
  simp only [htrim, List.isEmpty_iff, if_neg hrestne]

/-! ## Lines by their words -/

/-- The command of a line of blanks. -/
theorem followsWords_nil (hline : trim line.toList = []) :
    FollowsWords s [] (ofLine? line) where
  nothing _ := by
    rw [ofLine?, hline]
    rfl
  leave := nofun
  listVariables := nofun
  invalid := nofun
  assign := nofun
  evaluate := nofun

/-- What follows the word that assigns is a name and an expression, if it has two words. -/
theorem followsWords_ofAssignment? (front back : List Char) (h : Laid front.length t words) :
    (words.length < 2 → ofAssignment? t = none) ∧
    ∀ name third later last, words = name :: third :: later → words.getLast? = some last →
      ofAssignment? t = some (.assign (textAt (front ++ t ++ back) name)
        (textAt (front ++ t ++ back) ⟨third.start, last.stop⟩)) := by
  generalize hpos : front.length = pos at h
  cases h with
  | word hne hw => exact ⟨fun _ => ofAssignment?_of_word hw, nofun⟩
  | @cons _ w gap rest words hne hw hgapne hgap hrest =>
    subst hpos
    have hcommand := ofAssignment?_of_gap hw hgapne hgap hrest.ne_nil hrest.tight
    refine ⟨fun hfew => ?_, ?_⟩
    · have hnil : words = [] := by simpa using hfew
      exact absurd hnil hrest.words_ne_nil
    · rintro name third later last heq hlast
      obtain ⟨rfl, rfl⟩ := List.cons.inj heq
      rw [List.getLast?_cons_cons] at hlast
      have hexpression : textAt (front ++ (w ++ gap ++ rest) ++ back) ⟨third.start, last.stop⟩ =
          .ofList rest := by
        rw [← List.length_append, ← List.length_append] at hrest
        have hwhole := textAt_laid (front ++ w ++ gap) back hrest rfl hlast
        simpa only [List.append_assoc] using hwhole
      rw [textAt_first, hexpression, hcommand]

/-- The command of a line of one word. -/
theorem followsWords_of_word (front back : List Char) (hline : trim line.toList = w)
    (hne : w ≠ []) (hw : ∀ c ∈ w, isBlank c = false) :
    FollowsWords (front ++ w ++ back) [⟨front.length, front.length + w.length⟩] (ofLine? line) := by
  have htext := textAt_between front w back
  rw [ofLine?_of_word hline hne hw]
  refine ⟨nofun, ?_, ?_, ?_, nofun, ?_⟩
  · rintro _ ⟨⟩ hleave
    rw [htext] at hleave
    exact if_pos hleave
  · rintro _ ⟨⟩ hlist
    rw [htext] at hlist
    rw [hlist]
    rfl
  · rintro _ ⟨⟩ hassign -
    rw [htext] at hassign
    rw [hassign]
    rfl
  · rintro first last hfirst hlast hassign hothers
    rw [textAt_laid front back (.word hne hw) hfirst hlast]
    cases hfirst
    rw [htext] at hassign hothers
    obtain ⟨hleave, hlist⟩ := hothers rfl
    rw [if_neg hleave, if_neg hlist, if_neg hassign]

/-- The command of a line of more. -/
theorem followsWords_of_gap (front back : List Char) (hline : trim line.toList = w ++ gap ++ rest)
    (hne : w ≠ []) (hw : ∀ c ∈ w, isBlank c = false) (hgapne : gap ≠ [])
    (hgap : ∀ c ∈ gap, isBlank c) (hrest : Laid (front.length + w.length + gap.length) rest words) :
    FollowsWords (front ++ (w ++ gap ++ rest) ++ back)
      (⟨front.length, front.length + w.length⟩ :: words) (ofLine? line) := by
  have hcommand := ofLine?_of_gap hline hne hw hgapne hgap hrest.ne_nil hrest.tight
  have htext := textAt_first front w gap rest back
  have hwords := hrest.words_ne_nil
  have hlaid : Laid front.length (w ++ gap ++ rest)
      (⟨front.length, front.length + w.length⟩ :: words) := .cons hne hw hgapne hgap hrest
  rw [← List.length_append, ← List.length_append] at hrest
  have hmore := followsWords_ofAssignment? (front ++ w ++ gap) back hrest
  have hsame : front ++ w ++ gap ++ rest ++ back = front ++ (w ++ gap ++ rest) ++ back := by
    simp only [List.append_assoc]
  rw [hsame] at hmore
  refine ⟨nofun, ?_, ?_, ?_, ?_, ?_⟩
  · rintro _ ⟨⟩
    exact absurd rfl hwords
  · rintro _ ⟨⟩
    exact absurd rfl hwords
  · rintro first ⟨⟩ hassign hfew
    rw [hcommand, if_pos (htext ▸ hassign)]
    exact hmore.1 (Nat.lt_of_succ_lt_succ hfew)
  · rintro first name third later last heq hlast hassign
    obtain ⟨rfl, rfl⟩ := List.cons.inj heq
    rw [List.getLast?_cons_cons] at hlast
    rw [hcommand, if_pos (htext ▸ hassign)]
    exact hmore.2 name third later last rfl hlast
  · rintro first last ⟨⟩ hlast hassign -
    rw [textAt_laid front back hlaid rfl hlast, hcommand, if_neg (htext ▸ hassign)]

/-- **The command of a line that is laid out.** -/
theorem followsWords_of_laid (front back : List Char) (h : Laid front.length t words)
    (hline : trim line.toList = t) :
    FollowsWords (front ++ t ++ back) words (ofLine? line) := by
  generalize hpos : front.length = pos at h
  cases h with
  | word hne hw =>
    subst hpos
    exact followsWords_of_word front back hline hne hw
  | cons hne hw hgapne hgap hrest =>
    subst hpos
    exact followsWords_of_gap front back hline hne hw hgapne hgap hrest

/-- **Every line is told by its words.** -/
theorem exists_followsWords (line : String) :
    ∃ words, Words line.toList words ∧ FollowsWords line.toList words (ofLine? line) := by
  obtain ⟨front, back, hsplit, hfront, hback, htight⟩ := exists_trim line.toList
  by_cases hne : trim line.toList = []
  · refine ⟨[], words_of_blank ?_, followsWords_nil hne⟩
    rw [hsplit, hne, List.append_nil]
    exact List.forall_mem_append.2 ⟨hfront, hback⟩
  · obtain ⟨words, hlaid⟩ := exists_laid front.length htight hne
    refine ⟨words, ?_, ?_⟩
    · rw [hsplit]
      exact hlaid.words_between front back hfront hback
    · have hfollows := followsWords_of_laid front back hlaid rfl
      rwa [← hsplit] at hfollows

/-! ## What a command holds -/

/-- What stands behind the first word is tight. -/
theorem tight_of_firstWord (h : firstWord t = (w, rest)) : Tight rest := by
  unfold firstWord at h
  split at h
  · cases h
    exact tight_trim _
  · cases h
    exact tight_nil

/-- **A word as a name and a tight text as an expression**, neither of them empty. -/
structure Proper (name expression : String) : Prop where
  name_ne : name ≠ ""
  name_word : ∀ c ∈ name.toList, isBlank c = false
  expression_ne : expression ≠ ""
  expression_tight : Tight expression.toList

variable {name expression : String}

/-- What follows the word that assigns gives nothing else. -/
theorem proper_of_ofAssignment? (hrest : Tight rest) (hne : rest ≠ [])
    (h : ofAssignment? rest = some (.assign name expression)) : Proper name expression := by
  rcases hrest.cases_word hne with hw | ⟨w, gap, t, rfl, hwne, hw, hgapne, hgap, htne, ht⟩
  · rw [ofAssignment?_of_word hw] at h
    cases h
  · rw [ofAssignment?_of_gap hw hgapne hgap htne ht] at h
    cases h
    exact ⟨ofList_ne_empty hwne, by rwa [String.toList_ofList], ofList_ne_empty htne,
      by rwa [String.toList_ofList]⟩

/-- **Nor does any line.** -/
theorem proper_of_assign (h : ofLine? line = some (.assign name expression)) :
    Proper name expression := by
  by_cases hne : trim line.toList = []
  · rw [(followsWords_nil (s := []) hne).nothing rfl] at h
    cases h
  rcases (tight_trim line.toList).cases_word hne with
    hw | ⟨w, gap, rest, hline, hwne, hw, hgapne, hgap, hrestne, hrest⟩
  · rw [ofLine?_of_word rfl hne hw] at h
    split_ifs at h
    all_goals cases h
  · rw [ofLine?_of_gap hline hwne hw hgapne hgap hrestne hrest] at h
    split_ifs at h
    · exact proper_of_ofAssignment? hrest hrestne h
    · cases h

/-- **Blanks around a line make no difference.** -/
theorem ofLine?_pad (hfront : ∀ c ∈ front, isBlank c) (hback : ∀ c ∈ back, isBlank c)
    (line : String) : ofLine? (.ofList (front ++ line.toList ++ back)) = ofLine? line := by
  rw [ofLine?, ofLine?, String.toList_ofList, trim_pad hfront hback]

end Command

/-- **Commands follow the words of a line**, its longest runs of characters that are not
blank. So blanks around a line never change its command. In an assignment the name is
a word, and the expression is not empty and has no blanks around it: wherever a name
can be split off behind the first word, something is left for the expression. -/
theorem command_follows_words (line : String) :
    (∃ words, Words line.toList words ∧
      Command.FollowsWords line.toList words (Command.ofLine? line) ∧
      ∀ others, Words line.toList others → others = words) ∧
    (∀ front back : List Char, (∀ c ∈ front, isBlank c) → (∀ c ∈ back, isBlank c) →
      Command.ofLine? (.ofList (front ++ line.toList ++ back)) = Command.ofLine? line) ∧
    (∀ name expression, Command.ofLine? line = some (.assign name expression) →
      name ≠ "" ∧ (∀ c ∈ name.toList, isBlank c = false) ∧
        expression ≠ "" ∧ trim expression.toList = expression.toList) ∧
    ∀ word rest name after, Command.firstWord (trim line.toList) = (word, rest) →
      splitBlank? rest = some (name, after) → trim after ≠ [] := by
  refine ⟨?_, fun front back hfront hback => Command.ofLine?_pad hfront hback line,
    fun name expression h => ?_, fun word rest name after hfirst hsplit =>
      trim_ne_nil_of_split (Command.tight_of_firstWord hfirst) hsplit⟩
  · obtain ⟨words, hwords, hfollows⟩ := Command.exists_followsWords line
    exact ⟨words, hwords, hfollows, fun others hothers => hothers.unique hwords⟩
  · have hproper := Command.proper_of_assign h
    exact ⟨hproper.name_ne, hproper.name_word, hproper.expression_ne,
      hproper.expression_tight.trim_eq⟩

/-- The words of an assignment, and what it holds. Its expression keeps the blanks inside
it, and those around the line make no difference. -/
theorem assignment_follows_words :
    Command.ofLine? "set é 2  3\n" = some (.assign "é" "2  3") ∧
    Command.ofLine? (.ofList ([' ', '\t'] ++ "set é 2  3\n".toList ++ ['\n'])) =
      Command.ofLine? "set é 2  3\n" ∧
    trim "2  3".toList = "2  3".toList ∧
    Command.firstWord (trim "set é 2  3\n".toList) =
      (['s', 'e', 't'], ['é', ' ', '2', ' ', ' ', '3']) ∧
    splitBlank? ['é', ' ', '2', ' ', ' ', '3'] = some (['é'], ['2', ' ', ' ', '3']) ∧
    trim ['2', ' ', ' ', '3'] ≠ [] := by
  obtain ⟨⟨words, -, hfollows, hunique⟩, hpad, hassign, hsplit⟩ :=
    command_follows_words "set é 2  3\n"
  have hset : ∀ c ∈ ['s', 'e', 't'], isBlank c = false := by simp [isBlank]
  have hletter {c : Char} (h : isBlank c = false) : ∀ d ∈ [c], isBlank d = false :=
    List.forall_mem_singleton.2 h
  have hblank : ∀ c ∈ [' '], isBlank c := by simp [isBlank]
  have hblanks : ∀ c ∈ [' ', ' '], isBlank c := by simp [isBlank]
  have hlaid : Laid 0
      (['s', 'e', 't'] ++ [' '] ++ (['é'] ++ [' '] ++ (['2'] ++ [' ', ' '] ++ ['3'])))
      [⟨0, 3⟩, ⟨4, 5⟩, ⟨6, 7⟩, ⟨9, 10⟩] :=
    .cons (List.cons_ne_nil _ _) hset (List.cons_ne_nil _ _) hblank <|
      .cons (List.cons_ne_nil _ _) (hletter rfl) (List.cons_ne_nil _ _) hblank <|
        .cons (List.cons_ne_nil _ _) (hletter rfl) (List.cons_ne_nil _ _) hblanks <|
          .word (List.cons_ne_nil _ _) (hletter rfl)
  have hwords : Words "set é 2  3\n".toList [⟨0, 3⟩, ⟨4, 5⟩, ⟨6, 7⟩, ⟨9, 10⟩] :=
    hlaid.words_between [] ['\n'] nofun (List.forall_mem_singleton.2 rfl)
  have heq := hunique _ hwords
  subst heq
  have hcommand := hfollows.assign _ _ _ _ _ rfl rfl (by decide +kernel)
  have hname : Command.textAt "set é 2  3\n".toList ⟨4, 5⟩ = "é" := by decide +kernel
  have hexpression : Command.textAt "set é 2  3\n".toList ⟨6, 10⟩ = "2  3" := by decide +kernel
  have hline : Command.ofLine? "set é 2  3\n" = some (.assign "é" "2  3") := by
    rw [hcommand, hname]
    exact congrArg (fun expression => some (Command.assign "é" expression)) hexpression
  have hfirst : Command.firstWord (trim "set é 2  3\n".toList) =
      (['s', 'e', 't'], ['é', ' ', '2', ' ', ' ', '3']) := by
    decide +kernel
  have hrest : splitBlank? ['é', ' ', '2', ' ', ' ', '3'] = some (['é'], ['2', ' ', ' ', '3']) := by
    decide +kernel
  exact ⟨hline, hpad _ _ (by simp [isBlank]) (List.forall_mem_singleton.2 rfl),
    (hassign _ _ hline).2.2.2, hfirst, hrest, hsplit _ _ _ _ hfirst hrest⟩

end Calculator
