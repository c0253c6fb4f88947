import Mathlib.Data.Nat.Find
import ScriptLang.Proofs.Interactive.Inputs
import ScriptLang.Proofs.Text.Trim

/-!
# How lines make up inputs

Lines are cut into stretches: blank lines between inputs, and inputs, each of which is the shortest run
of lines from its first one that needs no more lines. What is left in the end begins with the command
that ends the session, or needs more lines than there are. Inside an input a blank line or a command is
a line like any other.

What an input evaluates to plays no part in this. A session that evaluates each input before it reads
the next line cuts the lines in the same way, and goes on after an input that fails.

## Main definitions

* `textOf`: the text of some lines
* `BeginsInput`, `IsInput`: the lines that an input can begin with, and the runs that are inputs
* `Stretch`, `Division`: lines as stretches and what is left
* `LineLoop.feed`: a session line by line

## Main results

* `inputsAfter_run`: lines are kept until nothing more is needed
* `nonempty_division`: all lines can be divided
* `Division.inputs_eq`: the inputs that lines make up are those of a division
* `LineLoop.feed_eq`: line by line, a session evaluates the inputs in order
* `inputs_divided`: all this of a session, however its inputs end
-/

namespace ScriptLang

/-- The text of some lines, each of which ends with a newline. -/
def textOf (run : List String) : String := String.join (run.map (· ++ "\n"))

@[simp] theorem textOf_nil : textOf [] = "" := rfl

theorem textOf_concat (run : List String) (line : String) :
    textOf (run ++ [line]) = textOf run ++ line ++ "\n" := by
  simp only [textOf, String.join, List.map_append, List.map_cons, List.map_nil, List.foldl_append,
    List.foldl_cons, List.foldl_nil, String.append_assoc]

theorem isEmpty_textOf_concat (run : List String) (line : String) :
    (textOf (run ++ [line])).isEmpty = false := by
  rw [textOf_concat, String.isEmpty_eq_false_iff]
  intro h
  have hchars := congrArg String.toList h
  simp at hchars

/-! ### Lines between inputs -/

/-- The line has nothing but white space. -/
def IsBlankLine (line : String) : Prop := Text.AllBlank line.toList

/-- The line is a command that ends the session, perhaps with white space around it. -/
def IsEndCommand (line : String) : Prop := String.ofList (Text.trim line.toList) ∈ endCommands

instance (line : String) : Decidable (IsBlankLine line) :=
  inferInstanceAs (Decidable (Text.AllBlank line.toList))

instance (line : String) : Decidable (IsEndCommand line) :=
  inferInstanceAs (Decidable (_ ∈ endCommands))

/-- An input can begin with the line. -/
def BeginsInput (line : String) : Prop := ¬ IsBlankLine line ∧ ¬ IsEndCommand line

instance (line : String) : Decidable (BeginsInput line) := inferInstanceAs (Decidable (_ ∧ _))

theorem isEmpty_trim_iff {line : String} :
    (String.ofList (Text.trim line.toList)).isEmpty = true ↔ IsBlankLine line := by
  rw [IsBlankLine, ← Text.trim_eq_nil_iff, String.isEmpty_iff, ← String.toList_inj,
    String.toList_ofList]
  rfl

/-- A blank line is no command. -/
theorem IsBlankLine.not_isEndCommand {line : String} (h : IsBlankLine line) : ¬ IsEndCommand line := by
  rw [IsEndCommand, Text.trim_eq_nil_iff.2 h]
  decide

theorem intake_of_isEndCommand {line : String} (h : IsEndCommand line) :
    intake "" line = .finished := by
  have hcommand : endCommands.contains (String.ofList (Text.trim line.toList)) = true :=
    List.contains_iff_mem.2 h
  simp only [intake]
  rw [hcommand]
  rfl

theorem intake_of_isBlankLine {line : String} (h : IsBlankLine line) : intake "" line = .skipped := by
  have hcommand : endCommands.contains (String.ofList (Text.trim line.toList)) = false := by
    rw [Bool.eq_false_iff, ne_eq, List.contains_iff_mem]
    exact h.not_isEndCommand
  simp only [intake]
  rw [hcommand, isEmpty_trim_iff.2 h]
  rfl

/-- Lines that need more lines take the next one, whatever it is. -/
theorem intake_textOf {run : List String} {line : String} (h : run = [] → BeginsInput line) :
    intake (textOf run) line =
      if isIncomplete (textOf (run ++ [line])) then .pending (textOf (run ++ [line]))
      else .complete (textOf (run ++ [line])) := by
  rw [textOf_concat]
  obtain rfl | ⟨front, last, rfl⟩ := List.eq_nil_or_concat run
  · obtain ⟨hblank, hcommand⟩ := h rfl
    have hcommand' : endCommands.contains (String.ofList (Text.trim line.toList)) = false := by
      rw [Bool.eq_false_iff, ne_eq, List.contains_iff_mem]
      exact hcommand
    have hblank' : (String.ofList (Text.trim line.toList)).isEmpty = false := by
      rw [Bool.eq_false_iff, ne_eq, isEmpty_trim_iff]
      exact hblank
    simp only [intake, hcommand', hblank', Bool.and_false, Bool.false_eq_true, if_false, textOf_nil]
  · rw [List.concat_eq_append]
    simp only [intake, isEmpty_textOf_concat, Bool.false_and, Bool.false_eq_true, if_false]

/-! ### Inputs -/

/-- Fewer lines than all, but at least one, need more lines. -/
def NeedsMore (run : List String) (bound : Nat) : Prop :=
  ∀ n < bound, 0 < n → isIncomplete (textOf (run.take n)) = true

instance (run : List String) (bound : Nat) : Decidable (NeedsMore run bound) :=
  inferInstanceAs (Decidable (∀ n < bound, _))

/-- The run of lines is the shortest from its first line that needs no more lines. -/
structure IsInput (run : List String) : Prop where
  begins : ∃ line ∈ run.head?, BeginsInput line
  complete : isIncomplete (textOf run) = false
  shortest : NeedsMore run run.length

/-- What is left when no other input can be made up. -/
inductive Leftover : List String → Prop where
  | none : Leftover []
  /-- A command ends the session, whatever comes after it. -/
  | command {line : String} {rest : List String} : IsEndCommand line → Leftover (line :: rest)
  /-- There are not enough lines. -/
  | unfinished {line : String} {rest : List String} : BeginsInput line →
    NeedsMore (line :: rest) (rest.length + 2) → Leftover (line :: rest)

theorem take_succ_append_cons (kept : List String) (line : String) (more : List String) :
    (kept ++ line :: more).take (kept.length + 1) = kept ++ [line] := by
  rw [List.take_append, List.take_of_length_le (Nat.le_succ _), Nat.add_sub_cancel_left]
  rfl

/-- Lines are kept until nothing more is needed. The induction is on the lines that follow those that
have been kept. -/
theorem inputsAfter_run {kept more : List String} (hmore : more ≠ [])
    (hbegins : kept = [] → ∃ line ∈ more.head?, BeginsInput line)
    (hincomplete : NeedsMore (kept ++ more) (kept ++ more).length)
    (hcomplete : isIncomplete (textOf (kept ++ more)) = false) (rest : List String) :
    inputsAfter (textOf kept) (more ++ rest) = textOf (kept ++ more) :: inputs rest := by
  induction more generalizing kept with
  | nil => exact absurd rfl hmore
  | cons line more ih =>
    have hline : kept = [] → BeginsInput line := fun hkept => by
      obtain ⟨first, hfirst, hbegins⟩ := hbegins hkept
      cases hfirst
      exact hbegins
    rw [List.cons_append, inputsAfter, intake_textOf hline]
    by_cases hlast : more = []
    · subst hlast
      rw [if_neg (by simp [hcomplete])]
      rfl
    · have hneeds : isIncomplete (textOf (kept ++ [line])) = true := by
        rw [← take_succ_append_cons kept line more]
        refine hincomplete _ ?_ (Nat.succ_pos _)
        have hpos : 0 < more.length := List.length_pos_iff.2 hlast
        simp only [List.length_append, List.length_cons]
        omega
      have happend : kept ++ line :: more = kept ++ [line] ++ more := by simp
      rw [if_pos hneeds, happend]
      rw [happend] at hincomplete hcomplete
      exact ih hlast (fun h => absurd h (by simp)) hincomplete hcomplete

theorem inputs_of_isInput {run : List String} (h : IsInput run) (rest : List String) :
    inputs (run ++ rest) = textOf run :: inputs rest := by
  have hne : run ≠ [] := by
    rintro rfl
    obtain ⟨line, hline, -⟩ := h.begins
    cases hline
  have hbegins (_ : ([] : List String) = []) : ∃ line ∈ run.head?, BeginsInput line := h.begins
  exact inputsAfter_run hne hbegins h.shortest h.complete rest

/-- Lines that are not enough make up no input. -/
theorem inputsAfter_of_needsMore {kept more : List String}
    (hbegins : kept = [] → ∀ line ∈ more.head?, BeginsInput line)
    (hincomplete : NeedsMore (kept ++ more) ((kept ++ more).length + 1)) :
    inputsAfter (textOf kept) more = [] := by
  induction more generalizing kept with
  | nil => rfl
  | cons line more ih =>
    have hneeds : isIncomplete (textOf (kept ++ [line])) = true := by
      rw [← take_succ_append_cons kept line more]
      refine hincomplete _ ?_ (Nat.succ_pos _)
      simp only [List.length_append, List.length_cons]
      omega
    have happend : kept ++ line :: more = kept ++ [line] ++ more := by simp
    rw [inputsAfter, intake_textOf fun hkept => hbegins hkept line rfl, if_pos hneeds]
    rw [happend] at hincomplete
    exact ih (fun h => absurd h (by simp)) hincomplete

theorem Leftover.inputs_eq {rest : List String} (h : Leftover rest) : inputs rest = [] := by
  cases h with
  | none => rfl
  | command hcommand => rw [inputs, inputsAfter, intake_of_isEndCommand hcommand]
  | unfinished hbegins hincomplete =>
    refine inputsAfter_of_needsMore (fun (_ : ([] : List String) = []) first hfirst => ?_) hincomplete
    cases hfirst
    exact hbegins

/-! ### Divisions -/

/-- A stretch of lines: a blank line, or the lines of an input. -/
inductive Stretch where
  | blank (line : String)
  | input (run : List String)

namespace Stretch

/-- The lines of the stretch. -/
def lines : Stretch → List String
  | blank line => [line]
  | input run => run

/-- The input that the stretch is. -/
def text? : Stretch → Option String
  | blank _ => none
  | input run => some (textOf run)

/-- The stretch is what it is taken for. -/
def IsProper : Stretch → Prop
  | blank line => IsBlankLine line
  | input run => IsInput run

end Stretch

/-- The lines of some stretches, in order. -/
def linesOf (stretches : List Stretch) : List String := stretches.flatMap Stretch.lines

/-- The inputs among some stretches, in order. -/
def textsOf (stretches : List Stretch) : List String := stretches.filterMap Stretch.text?

theorem inputs_linesOf {stretches : List Stretch} (h : ∀ x ∈ stretches, x.IsProper)
    (rest : List String) : inputs (linesOf stretches ++ rest) = textsOf stretches ++ inputs rest := by
  induction stretches with
  | nil => rfl
  | cons x stretches ih =>
    obtain ⟨hx, hothers⟩ := List.forall_mem_cons.1 h
    rw [linesOf, List.flatMap_cons, List.append_assoc]
    change inputs (x.lines ++ (linesOf stretches ++ rest)) = _
    cases x with
    | blank line =>
      rw [← List.nil_append (textsOf _)]
      change inputsAfter "" (line :: _) = _
      rw [inputsAfter, intake_of_isBlankLine hx]
      exact ih hothers
    | input run =>
      rw [Stretch.lines, inputs_of_isInput hx, ih hothers]
      rfl

/-- Lines as stretches, one behind the other, and what is left. -/
structure Division (lines : List String) where
  stretches : List Stretch
  rest : List String
  covers : linesOf stretches ++ rest = lines
  proper : ∀ x ∈ stretches, x.IsProper
  leftover : Leftover rest

/-- Among lines that can begin an input there is one, or there are not enough of them. -/
theorem exists_isInput {line : String} (hbegins : BeginsInput line) (lines : List String) :
    (∃ run rest, line :: lines = run ++ rest ∧ IsInput run) ∨ Leftover (line :: lines) := by
  classical
  by_cases hcomplete : ∃ n, 0 < n ∧ n ≤ lines.length + 1 ∧
      isIncomplete (textOf ((line :: lines).take n)) = false
  · -- The least number of lines that need no more of them.
    obtain ⟨hpos, hle, hfound⟩ := Nat.find_spec hcomplete
    let n := Nat.find hcomplete
    have hlength : ((line :: lines).take n).length = n := by
      rw [List.length_take, List.length_cons]
      exact Nat.min_eq_left hle
    refine .inl ⟨(line :: lines).take n, (line :: lines).drop n, (List.take_append_drop n _).symm, ?_,
      hfound, fun k hk hkpos => ?_⟩
    · refine ⟨line, ?_, hbegins⟩
      obtain ⟨k, hk⟩ := Nat.exists_eq_succ_of_ne_zero (Nat.ne_of_gt hpos)
      rw [show n = k + 1 from hk, List.take_succ_cons]
      rfl
    · rw [hlength] at hk
      have hsmaller := Nat.find_min hcomplete hk
      rw [List.take_take, Nat.min_eq_left hk.le]
      by_contra hfalse
      exact hsmaller ⟨hkpos, hk.le.trans hle, Bool.eq_false_iff.2 hfalse⟩
  · refine .inr (.unfinished hbegins fun n hn hpos => ?_)
    by_contra hfalse
    exact hcomplete ⟨n, hpos, Nat.le_of_lt_succ hn, Bool.eq_false_iff.2 hfalse⟩

namespace Division

/-- A stretch more in front. -/
def cons {lines : List String} (x : Stretch) (hx : x.IsProper) (d : Division lines) :
    Division (x.lines ++ lines) where
  stretches := x :: d.stretches
  rest := d.rest
  covers := by rw [linesOf, List.flatMap_cons, List.append_assoc, ← linesOf, d.covers]
  proper := List.forall_mem_cons.2 ⟨hx, d.proper⟩
  leftover := d.leftover

variable {lines : List String} (d : Division lines)

/-- The inputs that lines make up are those of a division. -/
theorem inputs_eq : inputs lines = textsOf d.stretches := by
  conv_lhs => rw [← d.covers]
  rw [inputs_linesOf d.proper, d.leftover.inputs_eq, List.append_nil]

end Division

/-- All lines can be divided. The induction is on their number: an input takes at least one. -/
theorem nonempty_division (lines : List String) : Nonempty (Division lines) := by
  induction hlength : lines.length using Nat.strong_induction_on generalizing lines with
  | h length ih =>
    cases lines with
    | nil => exact ⟨[], [], rfl, List.forall_mem_nil _, .none⟩
    | cons line lines =>
      by_cases hblank : IsBlankLine line
      · obtain ⟨d⟩ := ih lines.length (by rw [← hlength]; exact Nat.lt_succ_self _) lines rfl
        exact ⟨d.cons (.blank line) hblank⟩
      by_cases hcommand : IsEndCommand line
      · exact ⟨[], line :: lines, rfl, List.forall_mem_nil _, .command hcommand⟩
      obtain ⟨run, rest, hsplit, hrun⟩ | hleft := exists_isInput ⟨hblank, hcommand⟩ lines
      · have hshorter : rest.length < length := by
          obtain ⟨first, hfirst, -⟩ := hrun.begins
          have hpos : 0 < run.length := List.length_pos_iff.2 (by rintro rfl; cases hfirst)
          rw [← hlength, hsplit, List.length_append]
          omega
        obtain ⟨d⟩ := ih rest.length hshorter rest rfl
        rw [hsplit]
        exact ⟨d.cons (.input run) hrun⟩
      · exact ⟨[], line :: lines, rfl, List.forall_mem_nil _, hleft⟩

/-! ### Sessions -/

namespace LineLoop

/-- A session that evaluates each input before it reads the next line, after lines that need more
lines. -/
def feed (setting : Setting) (asJson : Bool) (loop : LineLoop) (pending : String) :
    List String → LineLoop
  | [] => loop
  | line :: lines =>
    match intake pending line with
    | .finished => loop
    | .skipped => feed setting asJson loop "" lines
    | .pending text => feed setting asJson loop text lines
    | .complete text => feed setting asJson (loop.evaluate setting asJson text) "" lines

variable (setting : Setting) (asJson : Bool)

/-- Line by line, a session evaluates the inputs in order. -/
theorem feed_eq (loop : LineLoop) (pending : String) (lines : List String) :
    loop.feed setting asJson pending lines =
      (inputsAfter pending lines).foldl (evaluate setting asJson) loop := by
  induction lines generalizing loop pending with
  | nil => rfl
  | cons line lines ih =>
    rw [feed, inputsAfter]
    cases intake pending line with
    | finished => rfl
    | skipped => exact ih loop ""
    | pending text => exact ih loop text
    | complete text => exact ih _ ""

end LineLoop

/-- **Lines are split into inputs without loss.** Lines fall into blank lines and inputs, one behind the
other, and a rest that begins with a command or needs more lines; each input is the shortest run of
lines that needs no more of them. Every such division has the inputs that a session evaluates, in order
and line by line. However an input ends, with a value or with a fault that is reported, the session goes
on with the lines behind it, and these are divided as they were. -/
theorem inputs_divided (lines : List String) :
    Nonempty (Division lines) ∧ ∀ d : Division lines, inputs lines = textsOf d.stretches ∧
      ∀ (setting : Setting) (asJson : Bool) (loop : LineLoop),
        let feed (loop : LineLoop) (lines : List String) := loop.feed setting asJson "" lines
        feed loop lines = (textsOf d.stretches).foldl (LineLoop.evaluate setting asJson) loop ∧
        feed loop lines = loop.run setting asJson lines ∧
        ∀ front run back, d.stretches = front ++ .input run :: back →
          let before := feed loop (linesOf front)
          let after := before.evaluate setting asJson (textOf run)
          feed loop lines = feed after (linesOf back ++ d.rest) ∧
          inputs (linesOf back ++ d.rest) = textsOf back ∧
          ∀ fault, before.result setting (textOf run) = .error fault → after.reports =
            before.reports.push (fault.present asJson ⟨inputName, textOf run⟩) := by
  refine ⟨nonempty_division lines, fun d => ⟨d.inputs_eq, fun setting asJson loop => ?_⟩⟩
  intro feed
  have hfeed (loop : LineLoop) (lines : List String) :
      feed loop lines = (inputs lines).foldl (LineLoop.evaluate setting asJson) loop :=
    loop.feed_eq setting asJson "" lines
  refine ⟨?_, hfeed loop lines, fun front run back hsplit => ?_⟩
  · rw [hfeed, d.inputs_eq]
  intro before after
  have hproper := d.proper
  rw [hsplit, List.forall_mem_append, List.forall_mem_cons] at hproper
  have hback : inputs (linesOf back ++ d.rest) = textsOf back := by
    rw [inputs_linesOf hproper.2.2, d.leftover.inputs_eq, List.append_nil]
  have hfront : inputs (linesOf front) = textsOf front := by
    have h := inputs_linesOf hproper.1 []
    rwa [List.append_nil, show inputs [] = [] from rfl, List.append_nil] at h
  refine ⟨?_, hback, fun fault hfault => before.reports_evaluate setting asJson _ hfault⟩
  have htexts : textsOf d.stretches = textsOf front ++ textOf run :: textsOf back := by
    rw [hsplit, textsOf, List.filterMap_append]
    rfl
  rw [hfeed, hfeed, hback, d.inputs_eq, htexts, List.foldl_append, List.foldl_cons, ← hfront, ← hfeed]

/-- A blank line, a string with a command inside, a name that is not bound, the string, and the
command. -/
def typedString : List String := [" ", "x = \"", ":quit", "", "\"", "nope", "x", " :exit ", "x"]

/-- The string takes four lines, although one of these would end the session elsewhere. -/
def Division.ofTypedString : Division typedString where
  stretches := [.blank " ", .input ["x = \"", ":quit", "", "\""], .input ["nope"], .input ["x"]]
  rest := [" :exit ", "x"]
  covers := rfl
  proper := by
    have hblank : IsBlankLine " " := by decide +kernel
    have hstring : IsInput ["x = \"", ":quit", "", "\""] :=
      ⟨⟨_, rfl, by decide +kernel⟩, by decide +kernel, by decide +kernel⟩
    have hnope : IsInput ["nope"] := ⟨⟨_, rfl, by decide +kernel⟩, by decide +kernel, by decide +kernel⟩
    have hname : IsInput ["x"] := ⟨⟨_, rfl, by decide +kernel⟩, by decide +kernel, by decide +kernel⟩
    simpa using ⟨hblank, hstring, hnope, hname⟩
  leftover := .command (by decide +kernel)

/-- The second input fails, and the session goes on with the third one until the command. -/
theorem inputs_divided_typedString :
    let setting : Setting := ⟨4, Library.resolve .empty⟩
    let feed (loop : LineLoop) (lines : List String) := loop.feed setting false "" lines
    let before := feed (.start {}) [" ", "x = \"", ":quit", "", "\""]
    let after := before.evaluate setting false "nope\n"
    inputs typedString = ["x = \"\n:quit\n\n\"\n", "nope\n", "x\n"] ∧
      feed (.start {}) typedString = feed after ["x", " :exit ", "x"] ∧
      inputs ["x", " :exit ", "x"] = ["x\n"] ∧
      ∃ fault, before.result setting "nope\n" = .error fault ∧ fault.kind = .name ∧
        after.reports = before.reports.push (fault.present false ⟨inputName, "nope\n"⟩) := by
  intro setting feed before after
  obtain ⟨hinputs, hsession⟩ := (inputs_divided typedString).2 .ofTypedString
  obtain ⟨-, -, hgoes⟩ := hsession setting false (.start {})
  obtain ⟨hfeed, hlater, hreport⟩ :=
    hgoes [.blank " ", .input ["x = \"", ":quit", "", "\""]] ["nope"] [.input ["x"]] rfl
  refine ⟨hinputs.trans (by decide +kernel), hfeed, hlater.trans (by decide +kernel), ?_⟩
  -- The value does not matter, and values cannot be compared.
  have hevaluated : ((before.result setting "nope\n").map fun _ => ()).mapError Diagnostic.kind =
      .error .name := by
    decide +kernel
  cases hresult : before.result setting "nope\n" with
  | ok v =>
    rw [hresult] at hevaluated
    cases hevaluated
  | error fault =>
    rw [hresult] at hevaluated
    exact ⟨fault, rfl, Except.error.inj hevaluated, hreport fault hresult⟩

end ScriptLang
