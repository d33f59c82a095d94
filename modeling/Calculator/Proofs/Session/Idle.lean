import Calculator.Proofs.Session.Lines
import Calculator.Proofs.Session.Run
/-!
# Idle lines, and where a session ends

A line that assigns nothing is answered and leaves the table alone
(`Session.step_of_idle`), so a session without it says the same but for that answer
(`Session.run_idle`). A session ends with the first of its lines that leaves or is no
text: it has printed one piece to each line before, then a prompt, and what comes behind
is never read (`Session.run_up_to`). As lines may be left out of an input, both hold of
inputs too.
-/

namespace Calculator

variable {table after : SymbolTable} {text : String} {texts shown : List String}
variable {line : Option String} {before lines : List (Option String)}

namespace Session

/-! ## What a line does -/

/-- **A line that assigns nothing.** It is blank, lists the variables, is no command, is
an expression, or is an assignment that fails. -/
inductive Idle (table : SymbolTable) (text : String) : Prop
  | blank : Command.ofLine? text = some .nothing → Idle table text
  | listing : Command.ofLine? text = some .listVariables → Idle table text
  | invalid : Command.ofLine? text = none → Idle table text
  | expression {source : String} : Command.ofLine? text = some (.evaluate source) →
      Idle table text
  | refused {name expression : String} {error : Error} :
      Command.ofLine? text = some (.assign name expression) →
      table.assign name expression = .error error → Idle table text

/-- **A line that ends the session**: it is no text, or leaves. -/
def ends : Option String → Bool
  | none => true
  | some text => Command.ofLine? text == some .leave

/-- **An idle line is answered** and the table stays. -/
theorem step_of_idle (h : Idle table text) : ∃ shown, step table text = .answer shown table := by
  unfold step
  cases h with
  | blank h | listing h | invalid h =>
    rw [h]
    exact ⟨_, rfl⟩
  | expression h =>
    rw [h]
    dsimp only [respond]
    split
    · exact ⟨_, rfl⟩
    · exact ⟨_, rfl⟩
  | refused h herror =>
    rw [h]
    dsimp only [respond]
    rw [herror]
    exact ⟨_, rfl⟩

/-- **Only an assignment that succeeds carries to the next line.** -/
theorem idle_or_assigns (h : step table text = .answer shown after) :
    Idle table text ∨ ∃ name expression value,
      Command.ofLine? text = some (.assign name expression) ∧
      table.assign name expression = .ok (value, after) := by
  cases hcommand : Command.ofLine? text with
  | none => exact .inl (.invalid hcommand)
  | some command =>
    cases command with
    | nothing => exact .inl (.blank hcommand)
    | leave =>
      rw [step, hcommand] at h
      cases h
    | listVariables => exact .inl (.listing hcommand)
    | evaluate source => exact .inl (.expression hcommand)
    | assign name expression =>
      rw [step, hcommand] at h
      dsimp only [respond] at h
      split at h
      · rename_i value after' hassign
        cases h
        exact .inr ⟨name, expression, value, rfl, hassign⟩
      · rename_i error herror
        exact .inl (.refused hcommand herror)

/-- A command leaves if it says so, whatever the table is. -/
theorem respond_eq_leave_iff {command : Option Command} :
    respond table command = .leave ↔ command = some .leave := by
  constructor
  · intro h
    match command with
    | none | some .nothing | some .listVariables => cases h
    | some .leave => rfl
    | some (.assign name expression) | some (.evaluate source) =>
      dsimp only [respond] at h
      split at h
      · cases h
      · cases h
  · rintro rfl
    rfl

/-- A text that does not end the session is answered. -/
theorem exists_answer (table : SymbolTable) (h : ends (some text) = false) :
    ∃ shown next, step table text = .answer shown next := by
  cases hstep : step table text with
  | answer shown next => exact ⟨shown, next, rfl⟩
  | leave =>
    rw [ends, respond_eq_leave_iff.1 hstep] at h
    exact absurd h (by decide)

/-! ## Sessions over lines -/

/-- **Lines that do not end the session are texts, and leave a table.** -/
theorem exists_tableAfter (table : SymbolTable) (h : ∀ line ∈ lines, ends line = false) :
    ∃ texts after, lines = texts.map some ∧ tableAfter table texts = some after := by
  induction lines generalizing table with
  | nil => exact ⟨[], table, rfl, rfl⟩
  | cons line lines ih =>
    obtain ⟨hline, hlines⟩ := List.forall_mem_cons.1 h
    cases line with
    | none => exact absurd hline (by decide)
    | some text =>
      obtain ⟨shown, next, hstep⟩ := exists_answer table hline
      obtain ⟨texts, after, rfl, htable⟩ := ih next hlines
      refine ⟨text :: texts, after, rfl, ?_⟩
      rw [tableAfter, hstep]
      exact htable

/-- A line that ends the session gets a prompt, and fails the session if it is no text. -/
theorem run_of_ends (h : ends line = true) (rest : List (Option String)) :
    run table (line :: rest) = ⟨[prompt], line.isNone⟩ := by
  cases line with
  | none => rfl
  | some text =>
    have hleave : Command.ofLine? text = some .leave := eq_of_beq h
    rw [run, step, respond_eq_leave_iff.2 hleave]
    rfl

/-- **Without an idle line a session prints all but its piece**, and ends the same way. -/
theorem run_idle (htable : tableAfter table texts = some after) (h : Idle after text)
    (rest : List (Option String)) :
    ∃ shown earlier, step after text = .answer shown after ∧ earlier.length = texts.length ∧
      run table (texts.map some ++ some text :: rest) =
        (run after rest).prependAll (earlier ++ [piece shown]) ∧
      run table (texts.map some ++ rest) = (run after rest).prependAll earlier := by
  obtain ⟨shown, hstep⟩ := step_of_idle h
  obtain ⟨earlier, hlength, hrun⟩ := run_append htable
  refine ⟨shown, earlier, hstep, hlength, ?_, hrun rest⟩
  have hnext : run after (some text :: rest) = (run after rest).prepend (piece shown) := by
    rw [run, hstep]
  rw [hrun, hnext, Transcript.prependAll, Transcript.prependAll, List.append_assoc]
  rfl

/-- **Lines that do not end the session are answered one by one.** -/
theorem run_on (table : SymbolTable) (h : ∀ line ∈ before, ends line = false) :
    ∃ pieces after, pieces.length = before.length ∧
      ∀ rest, run table (before ++ rest) = (run after rest).prependAll pieces := by
  obtain ⟨texts, after, rfl, htable⟩ := exists_tableAfter table h
  obtain ⟨pieces, hlength, hrun⟩ := run_append htable
  exact ⟨pieces, after, hlength.trans (List.length_map some).symm, hrun⟩

/-- **A session ends with the first line that ends it.** Each line before has its piece,
and the last prompt stays without an answer. -/
theorem run_up_to (table : SymbolTable) (hbefore : ∀ line ∈ before, ends line = false)
    (h : ends line = true) :
    ∃ pieces, pieces.length = before.length ∧
      ∀ rest, run table (before ++ line :: rest) = ⟨pieces ++ [prompt], line.isNone⟩ := by
  obtain ⟨pieces, after, hlength, hrun⟩ := run_on table hbefore
  refine ⟨pieces, hlength, fun rest => ?_⟩
  rw [hrun, run_of_ends h]
  rfl

/-- It ends with its input if no line ends it. -/
theorem run_through (table : SymbolTable) (h : ∀ line ∈ lines, ends line = false) :
    ∃ pieces, pieces.length = lines.length ∧ run table lines = ⟨pieces ++ [prompt], false⟩ := by
  obtain ⟨pieces, after, hlength, hrun⟩ := run_on table h
  refine ⟨pieces, hlength, ?_⟩
  rw [← List.append_nil lines, hrun]
  rfl

/-! ## Sessions over inputs -/

variable {input bytes : List UInt8} {front back : List (List UInt8)}

/-- **A session over an input gets to a line**: the line is one of the input, and none
before it ends the session. -/
structure Arrives (input : List UInt8) (front : List (List UInt8)) (bytes : List UInt8)
    (back : List (List UInt8)) : Prop where
  lines : splitLines input = front ++ bytes :: back
  on : ∀ earlier ∈ front, ends (decode earlier) = false

/-- A session over an input reads the lines as they are laid out in it. -/
theorem ofBytes_of_lines (h : splitLines input = front ++ back) :
    ofBytes input = run Builtins.table (front.map decode ++ back.map decode) := by
  rw [ofBytes, h, List.map_append]

namespace Arrives

/-- The texts before a line, and the table there. -/
theorem exists_tableAfter (h : Arrives input front bytes back) :
    ∃ texts table, front.map decode = texts.map some ∧
      tableAfter Builtins.table texts = some table :=
  Session.exists_tableAfter Builtins.table (List.forall_mem_map.2 h.on)

/-- The input is the line between what stands before and behind it. -/
theorem input_eq (h : Arrives input front bytes back) :
    input = front.flatten ++ bytes ++ back.flatten := by
  rw [← flatten_splitLines input, h.lines, List.flatten_append, List.flatten_cons,
    List.append_assoc]

/-- **Without one of its lines an input has the others.** -/
theorem lines_without (h : Arrives input front bytes back) :
    splitLines (front.flatten ++ back.flatten) = front ++ back := by
  have hlines : IsLines (front ++ bytes :: back) := h.lines ▸ isLines_splitLines input
  have hothers : IsLines (front ++ back) :=
    hlines.sublist ((List.sublist_cons_self bytes back).append_left front)
  rw [← List.flatten_append, splitLines_flatten hothers]

/-- **The outcome of a session that a line ends** is decided by the lines up to that one. -/
theorem outcome (h : Arrives input front bytes back) (hends : ends (decode bytes) = true) :
    ∃ pieces, pieces.length = front.length ∧ ∀ other rest,
      splitLines other = front ++ bytes :: rest →
        ofBytes other = ⟨pieces ++ [prompt], (decode bytes).isNone⟩ := by
  obtain ⟨pieces, hlength, hrun⟩ :=
    run_up_to Builtins.table (List.forall_mem_map.2 h.on) hends
  refine ⟨pieces, hlength.trans (List.length_map decode), fun other rest hother => ?_⟩
  rw [ofBytes_of_lines hother, List.map_cons]
  exact hrun (rest.map decode)

end Arrives

/-- A session gets to the end of its input, or to a line that ends it. -/
theorem through_or_arrives (input : List UInt8) :
    (∀ bytes ∈ splitLines input, ends (decode bytes) = false) ∨
      ∃ front bytes back, Arrives input front bytes back ∧ ends (decode bytes) = true := by
  cases hfind : (splitLines input).find? (fun bytes => ends (decode bytes)) with
  | none =>
    exact .inl fun bytes hmem => Bool.eq_false_iff.2 (List.find?_eq_none.1 hfind bytes hmem)
  | some bytes =>
    obtain ⟨hends, front, back, hlines, hfront⟩ := List.find?_eq_some_iff_append.1 hfind
    refine .inr ⟨front, bytes, back, ⟨hlines, fun earlier hmem => ?_⟩, hends⟩
    exact Bool.not_eq_true' _ ▸ hfront earlier hmem

/-- At the end of its input a session has not failed. -/
theorem failed_of_through (h : ∀ bytes ∈ splitLines input, ends (decode bytes) = false) :
    (ofBytes input).failed = false := by
  obtain ⟨pieces, -, hrun⟩ := run_through Builtins.table (List.forall_mem_map.2 h)
  rw [ofBytes, hrun]

/-- Elsewhere it has if the line is no text. -/
theorem Arrives.failed (h : Arrives input front bytes back) (hends : ends (decode bytes) = true) :
    (ofBytes input).failed = (decode bytes).isNone := by
  obtain ⟨pieces, -, houtcome⟩ := h.outcome hends
  rw [houtcome input back h.lines]

/-- **A session fails where it gets to a line that is no text.** -/
theorem failed_iff : (ofBytes input).failed = true ↔
    ∃ front bytes back, Arrives input front bytes back ∧ decode bytes = none := by
  constructor
  · intro hfailed
    rcases through_or_arrives input with hthrough | ⟨front, bytes, back, harrives, hends⟩
    · rw [failed_of_through hthrough] at hfailed
      cases hfailed
    · rw [harrives.failed hends] at hfailed
      exact ⟨front, bytes, back, harrives, Option.isNone_iff_eq_none.1 hfailed⟩
  · rintro ⟨front, bytes, back, harrives, hbytes⟩
    rw [harrives.failed (by rw [hbytes, ends]), hbytes, Option.isNone_none]

/-- **It ends well at a line that leaves, or behind the last line.** -/
theorem not_failed_iff : (ofBytes input).failed = false ↔
    (∀ bytes ∈ splitLines input, ends (decode bytes) = false) ∨
      ∃ front bytes back text, Arrives input front bytes back ∧ decode bytes = some text ∧
        Command.ofLine? text = some .leave := by
  constructor
  · intro hfailed
    refine (through_or_arrives input).imp_right fun ⟨front, bytes, back, harrives, hends⟩ => ?_
    rw [harrives.failed hends] at hfailed
    cases hbytes : decode bytes with
    | none =>
      rw [hbytes] at hfailed
      cases hfailed
    | some text =>
      rw [hbytes] at hends
      exact ⟨front, bytes, back, text, harrives, hbytes, eq_of_beq hends⟩
  · rintro (hthrough | ⟨front, bytes, back, text, harrives, hbytes, hleave⟩)
    · exact failed_of_through hthrough
    · have hends : ends (decode bytes) = true := by
        rw [hbytes]
        exact beq_iff_eq.2 hleave
      rw [harrives.failed hends, hbytes, Option.isNone_some]

end Session

/-- The exit code is one after a failure. -/
theorem Transcript.exitCode_eq_one_iff {transcript : Transcript} :
    transcript.exitCode = 1 ↔ transcript.failed = true := by
  simp [exitCode]

/-- It is zero otherwise. -/
theorem Transcript.exitCode_eq_zero_iff {transcript : Transcript} :
    transcript.exitCode = 0 ↔ transcript.failed = false := by
  simp [exitCode]

open Session

/-- **Idle lines leave no trace.** A line that is answered is idle or an assignment that
succeeds, and makes the table it leaves. Of a line that a session gets to and that is idle
there, nothing shows but its own piece: without the line the input gives the same pieces
before and behind, and the same exit code. The first line that leaves or is no text gets
a prompt, and what follows it is of no matter. If it is no text the exit code is one; if
it leaves, or no line ends the session, the code is zero. -/
theorem idle_lines_leave_no_trace (input : List UInt8) :
    (∀ table text shown next, step table text = .answer shown next →
      Idle table text ∨ ∃ name expression value,
        Command.ofLine? text = some (.assign name expression) ∧
        table.assign name expression = .ok (value, next)) ∧
      (∀ front bytes back text, Arrives input front bytes back → decode bytes = some text →
        input = front.flatten ++ bytes ++ back.flatten ∧
        ∃ texts table, front.map decode = texts.map some ∧
          tableAfter Builtins.table texts = some table ∧
          (Idle table text → ∃ shown earlier later, step table text = .answer shown table ∧
            earlier.length = front.length ∧
            (ofBytes input).pieces = earlier ++ piece shown :: later ∧
            (ofBytes (front.flatten ++ back.flatten)).pieces = earlier ++ later ∧
            (ofBytes (front.flatten ++ back.flatten)).exitCode = (ofBytes input).exitCode)) ∧
      (∀ front bytes back, Arrives input front bytes back → ends (decode bytes) = true →
        (∃ pieces, pieces.length = front.length ∧
          (ofBytes input).pieces = pieces ++ [prompt]) ∧
        ∀ other rest, splitLines other = front ++ bytes :: rest →
          ofBytes other = ofBytes input) ∧
      ((ofBytes input).exitCode = 1 ↔
        ∃ front bytes back, Arrives input front bytes back ∧ decode bytes = none) ∧
      ((ofBytes input).exitCode = 0 ↔
        (∀ bytes ∈ splitLines input, ends (decode bytes) = false) ∨
          ∃ front bytes back text, Arrives input front bytes back ∧ decode bytes = some text ∧
            Command.ofLine? text = some .leave) := by
  refine ⟨fun _ _ _ _ => idle_or_assigns,
    fun front bytes back text harrives hbytes => ?_, fun front bytes back harrives hends => ?_,
    Transcript.exitCode_eq_one_iff.trans failed_iff,
    Transcript.exitCode_eq_zero_iff.trans not_failed_iff⟩
  · obtain ⟨texts, table, htexts, htable⟩ := harrives.exists_tableAfter
    refine ⟨harrives.input_eq, texts, table, htexts, htable, fun hidle => ?_⟩
    obtain ⟨shown, earlier, hstep, hlength, hwith, hwithout⟩ :=
      run_idle htable hidle (back.map decode)
    have hinput : ofBytes input =
        (run table (back.map decode)).prependAll (earlier ++ [piece shown]) := by
      rw [ofBytes_of_lines harrives.lines, List.map_cons, htexts, hbytes, hwith]
    have hother : ofBytes (front.flatten ++ back.flatten) =
        (run table (back.map decode)).prependAll earlier := by
      rw [ofBytes_of_lines harrives.lines_without, htexts, hwithout]
    refine ⟨shown, earlier, (run table (back.map decode)).pieces, hstep, ?_, ?_, ?_, ?_⟩
    · rw [hlength, ← List.length_map decode, htexts, List.length_map]
    · rw [hinput, Transcript.prependAll, List.append_assoc, List.singleton_append]
    · rw [hother, Transcript.prependAll]
    · rw [hother, hinput]
      rfl
  · obtain ⟨pieces, hlength, houtcome⟩ := harrives.outcome hends
    refine ⟨⟨pieces, hlength, ?_⟩, fun other rest hother => ?_⟩
    · rw [houtcome input back harrives.lines]
    · rw [houtcome other rest hother, houtcome input back harrives.lines]

/-- `vars` is printed and forgotten: without it the line before and the prompt behind are
the same, and the session fails with the byte that is no text. -/
theorem vars_leaves_no_trace :
    ∃ earlier shown, earlier.length = 1 ∧
      (ofBytes ("set x 2\nvars\n".toUTF8.data.toList ++ [255, 10])).pieces =
        earlier ++ [piece shown, prompt] ∧
      (ofBytes ("set x 2\n".toUTF8.data.toList ++ [255, 10])).pieces = earlier ++ [prompt] ∧
      (ofBytes ("set x 2\n".toUTF8.data.toList ++ [255, 10])).exitCode = 1 := by
  obtain ⟨-, hidle, hends, hfails, -⟩ :=
    idle_lines_leave_no_trace ("set x 2\nvars\n".toUTF8.data.toList ++ [255, 10])
  have hlines : splitLines ("set x 2\nvars\n".toUTF8.data.toList ++ [255, 10]) =
      ["set x 2\n".toUTF8.data.toList] ++ "vars\n".toUTF8.data.toList :: [[255, 10]] := by
    decide +kernel
  have hset : ends (decode "set x 2\n".toUTF8.data.toList) = false := by decide +kernel
  have hvars : decode "vars\n".toUTF8.data.toList = some "vars\n" := by decide +kernel
  have hlast : decode [255, 10] = none := by decide +kernel
  have harrives : Arrives _ _ "vars\n".toUTF8.data.toList _ :=
    ⟨hlines, List.forall_mem_singleton.2 hset⟩
  have harrives' : Arrives ("set x 2\nvars\n".toUTF8.data.toList ++ [255, 10])
      (["set x 2\n".toUTF8.data.toList] ++ ["vars\n".toUTF8.data.toList]) [255, 10] [] := by
    refine ⟨hlines, List.forall_mem_append.2 ⟨List.forall_mem_singleton.2 hset, ?_⟩⟩
    exact List.forall_mem_singleton.2 (by decide +kernel)
  -- the session gets to the listing, which is idle, and then to the byte that is no text
  obtain ⟨-, -, table, -, -, hwithout⟩ := hidle _ _ _ _ harrives hvars
  obtain ⟨shown, earlier, later, -, hlength, hpieces, hother, hcode⟩ :=
    hwithout (.listing (by decide +kernel))
  obtain ⟨⟨pieces, hcount, hprompt⟩, -⟩ := hends _ _ _ harrives' (by rw [hlast, ends])
  have hone := hfails.2 ⟨_, _, _, harrives', hlast⟩
  have hlater : later = [prompt] := by
    rw [hprompt, List.append_cons earlier] at hpieces
    have hfront : pieces.length = (earlier ++ [piece shown]).length := by
      rw [hcount, List.length_append, List.length_append, hlength]
      rfl
    exact (List.append_inj hpieces hfront).2.symm
  subst hlater
  exact ⟨earlier, shown, hlength, hpieces, hother, hcode.trans hone⟩

end Calculator
