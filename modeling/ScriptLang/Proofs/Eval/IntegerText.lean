import ScriptLang.Proofs.Eval.Arithmetic
import ScriptLang.Proofs.Text.Trim

/-!
# Integers written and read back

An integer is written with a sign if it is negative and with decimal digits. What is read as an integer
may have one sign of either kind, leading zeros, and white space around it, but none inside. So every
integer is read back from what it is written as, the least one included, whose magnitude is out of range
itself.

## Main definitions

* `Denotes`: the strings that stand for integers

## Main results

* `integerText_int64Text`: an integer is written as a text that denotes it
* `denotes_iff`: what a string stands for is what is left of it without the white space around it
* `Host.call_builtin`: what a call of a built-in does
* `integers_read_back`: what is written is read back, and which strings are read at all
-/

namespace ScriptLang

/-! ### Texts of integers -/

/-- The string stands for the integer: decimal digits after at most one sign, in white space. -/
def Denotes (s : String) (z : Int) : Prop :=
  ∃ before text after, s.toList = before ++ text ++ after ∧ Text.AllBlank before ∧
    Text.AllBlank after ∧ IntegerText text z

/-- The digits of a natural are digits, and there is at least one. -/
theorem digits_toDigits (n : Nat) :
    Nat.toDigits 10 n ≠ [] ∧ ∀ c ∈ Nat.toDigits 10 n, c.isDigit = true :=
  ⟨Nat.toDigits_ne_nil, fun _ hc => Nat.isDigit_of_mem_toDigits (by decide) (by decide) hc⟩

/-- An integer is written as a text that denotes it. -/
theorem integerText_int64Text (n : Int64) : IntegerText (int64Text n).toList n.toInt := by
  rw [int64Text]
  -- The digits are those of the magnitude as a natural, which need not fit 64 bits.
  cases n.toInt with
  | ofNat k =>
    obtain ⟨hne, hdigits⟩ := digits_toDigits k
    have htext : (toString (Int.ofNat k)).toList = Nat.toDigits 10 k := String.toList_ofList
    have hread := IntegerText.unsigned hne hdigits
    rwa [natOfDigits_toDigits, ← htext] at hread
  | negSucc k =>
    obtain ⟨hne, hdigits⟩ := digits_toDigits (k + 1)
    have htext : (toString (Int.negSucc k)).toList = '-' :: Nat.toDigits 10 (k + 1) := by
      have hrepr : (k + 1).repr.toList = Nat.toDigits 10 (k + 1) := String.toList_ofList
      change ("-" ++ (k + 1).repr).toList = _
      rw [String.toList_append, hrepr]
      rfl
    have hread := IntegerText.negative hne hdigits
    rwa [natOfDigits_toDigits, ← htext] at hread

/-- There is no white space inside. -/
theorem IntegerText.isBlank_eq_false {text : List Char} {z : Int} (h : IntegerText text z) :
    ∀ c ∈ text, Text.isBlank c = false := by
  have hdigit {digits : List Char} (hdigits : ∀ c ∈ digits, c.isDigit = true) :
      ∀ c ∈ digits, Text.isBlank c = false := fun c hc => (isDigit_apart (hdigits c hc)).1
  cases h with
  | unsigned _ hdigits => exact hdigit hdigits
  | positive _ hdigits => exact List.forall_mem_cons.2 ⟨by decide, hdigit hdigits⟩
  | negative _ hdigits => exact List.forall_mem_cons.2 ⟨by decide, hdigit hdigits⟩

/-- What a string stands for is what is left of it without the white space around it. -/
theorem denotes_iff {s : String} {z : Int} : Denotes s z ↔ IntegerText (Text.trim s.toList) z := by
  constructor
  · rintro ⟨before, text, after, hs, hbefore, hafter, htext⟩
    rwa [hs, Text.trim_append hbefore htext.isBlank_eq_false hafter]
  · intro h
    obtain ⟨before, after, hs, hbefore, hafter⟩ := Text.exists_eq_append_trim s.toList
    exact ⟨before, _, after, hs, hbefore, hafter, h⟩

namespace Value

/-- A string that stands for an integer of 64 bits is read as that. -/
theorem toInt?_of_denotes {s : String} {n : Int64} (h : Denotes s n.toInt) :
    toInt? (string s) = .ok (int n) := by
  have hread : int64OfText? (Text.trim s.toList) = some n := by
    rw [(denotes_iff.1 h).int64OfText?, int64OfInt?_eq_some_iff]
  rw [toInt?, hread]

/-- An integer as it is written, between two texts of white space, is read as that. -/
theorem toInt?_text (n : Int64) {before after : String} (hbefore : Text.AllBlank before.toList)
    (hafter : Text.AllBlank after.toList) :
    toInt? (string (before ++ (int n).text ++ after)) = .ok (int n) := by
  have hparts : (before ++ (int n).text ++ after).toList =
      before.toList ++ (int n).text.toList ++ after.toList := by
    rw [String.toList_append, String.toList_append]
  exact toInt?_of_denotes ⟨_, _, _, hparts, hbefore, hafter, integerText_int64Text n⟩

/-- Any other string is refused. -/
theorem toInt?_of_not_denotes {s : String} (h : ∀ n : Int64, ¬ Denotes s n.toInt) :
    toInt? (string s) = .error (.integerText s) := by
  rw [toInt?]
  cases hread : int64OfText? (Text.trim s.toList) with
  | none => rfl
  | some n => exact absurd (denotes_iff.2 (integerText_of_int64OfText? hread)) (h n)

end Value

/-- What fits is an integer of 64 bits. -/
theorem exists_toInt_eq {z : Int} (h : Fits z) : ∃ n : Int64, n.toInt = z := by
  cases hz : int64OfInt? z with
  | some n => exact ⟨n, int64OfInt?_eq_some_iff.1 hz⟩
  | none => exact absurd h (int64OfInt?_eq_none_iff_not_fits.1 hz)

/-! ### Calls -/

/-- A call of a built-in, with a frame left for it. -/
theorem Host.call_builtin (setting : Setting) (frames : Nat) (b : Builtin) (args : List Value)
    (span : Span) (m : Machine) :
    (Host.withFrames setting (frames + 1)).call (.builtin b) args span m =
      match b.outcome? args with
      | .ok (v, none) => .ok v m
      | .ok (v, some line) => .ok v { m with output := m.output.emit line }
      | .error fault => .error (fault.at span) m := by
  rw [Host.call_succ, applyValue, Eval.mapDiagnostic, Builtin.run]
  cases b.outcome? args with
  | error fault => rfl
  | ok result =>
    obtain ⟨v, _ | line⟩ := result
    · rfl
    · rfl

theorem Host.call_str (setting : Setting) (frames : Nat) (v : Value) (span : Span) (m : Machine) :
    (Host.withFrames setting (frames + 1)).call (.builtin .str) [v] span m = .ok (.string v.text) m :=
  call_builtin setting frames .str [v] span m

theorem Host.call_int (setting : Setting) (frames : Nat) (v : Value) (span : Span) (m : Machine) :
    (Host.withFrames setting (frames + 1)).call (.builtin .int) [v] span m =
      match v.toInt? with
      | .ok n => .ok n m
      | .error fault => .error (fault.at span) m := by
  have houtcome : Builtin.int.outcome? [v] = v.toInt?.bind fun n => .ok (n, none) := rfl
  rw [call_builtin, houtcome]
  cases v.toInt? with
  | ok n => rfl
  | error fault => rfl

/-- The sum of two strings. -/
theorem evalExpr_append {host : Host} {scope : ScopeId} {left right : Expr} {a b : String}
    {m m' m'' : Machine} (hleft : evalExpr host scope left m = .ok (.string a) m')
    (hright : evalExpr host scope right m' = .ok (.string b) m'') (span : Span) :
    evalExpr host scope (.binary span left .add right) m = .ok (.string (a ++ b)) m'' := by
  rw [evalExpr, Eval.bind_eq, hleft]
  change (evalExpr host scope right >>= fun r => applyBinary .add (.string a) r span) m' = _
  rw [Eval.bind_eq, hright]
  rfl

/-- The expression `int(before + str(e) + after)`, wherever its parts stand. -/
def readingBack (places : Fin 8 → Span) (before after : String) (e : Expr) : Expr :=
  let written := .call (places 0) (.name (places 1) Builtin.str.name) [e]
  let text := .binary (places 2) (.binary (places 3) (.string (places 4) before) .add written) .add
    (.string (places 5) after)
  .call (places 6) (.name (places 7) Builtin.int.name) [text]

theorem evalExpr_readingBack {setting : Setting} {frames : Nat} {scope : ScopeId} {e : Expr}
    {n : Int64} {m m' : Machine} {before after : String} (hbefore : Text.AllBlank before.toList)
    (hafter : Text.AllBlank after.toList)
    (he : evalExpr (Host.withFrames setting (frames + 1)) scope e m = .ok (.int n) m')
    (hint : m.store.lookup? scope Builtin.int.name = none)
    (hstr : m.store.lookup? scope Builtin.str.name = none) (places : Fin 8 → Span) :
    evalExpr (Host.withFrames setting (frames + 1)) scope (readingBack places before after e) m =
      .ok (.int n) m' := by
  have hwritten : evalExpr (Host.withFrames setting (frames + 1)) scope
      (.call (places 0) (.name (places 1) Builtin.str.name) [e]) m = .ok (.string (Value.int n).text) m' :=
    (evalExpr_call_builtin hstr he).trans (Host.call_str ..)
  have hliteral (place : Span) (text : String) (m : Machine) :
      evalExpr (Host.withFrames setting (frames + 1)) scope (.string place text) m =
        .ok (.string text) m := by
    rw [evalExpr]
    rfl
  have htext := evalExpr_append (evalExpr_append (hliteral (places 4) before m) hwritten (places 3))
    (hliteral (places 5) after m') (places 2)
  refine (evalExpr_call_builtin hint htext).trans ?_
  rw [Host.call_int, Value.toInt?_text n hbefore hafter]

/-- **Integers are read back.** In a call with a frame left, `str` writes an integer as decimal digits
that stand for it, with a sign before them where it needs one, and `int` reads that back, with white
space around it or without; so a program that writes an integer and reads it gets the same integer. What
`int` reads of a string is the integer of 64 bits that the string stands for, and a string that stands
for none is reported. -/
theorem integers_read_back (setting : Setting) (frames : Nat) :
    let host := Host.withFrames setting (frames + 1)
    (∀ n before after, Text.AllBlank before.toList → Text.AllBlank after.toList →
      (∀ span m, ∃ text : String, IntegerText text.toList n.toInt ∧
        host.call (.builtin .str) [.int n] span m = .ok (.string text) m ∧
        host.call (.builtin .int) [.string (before ++ text ++ after)] span m = .ok (.int n) m) ∧
      ∀ scope e m m', evalExpr host scope e m = .ok (.int n) m' →
        m.store.lookup? scope Builtin.int.name = none → m.store.lookup? scope Builtin.str.name = none →
        ∀ places, evalExpr host scope (readingBack places before after e) m = .ok (.int n) m') ∧
    ∀ s span m,
      (∀ z, Denotes s z → Fits z → ∃ n : Int64, n.toInt = z ∧
        host.call (.builtin .int) [.string s] span m = .ok (.int n) m) ∧
      ((∀ z, Denotes s z → ¬ Fits z) → ∃ d, d.kind = .type ∧
        host.call (.builtin .int) [.string s] span m = .error d m) := by
  refine ⟨fun n before after hbefore hafter => ⟨fun span m => ?_, ?_⟩, fun s span m => ⟨?_, ?_⟩⟩
  · refine ⟨(Value.int n).text, integerText_int64Text n, Host.call_str .., ?_⟩
    rw [Host.call_int, Value.toInt?_text n hbefore hafter]
  · exact fun scope e m m' he hint hstr => evalExpr_readingBack hbefore hafter he hint hstr
  · intro z hz hfits
    obtain ⟨n, rfl⟩ := exists_toInt_eq hfits
    exact ⟨n, rfl, by rw [Host.call_int, Value.toInt?_of_denotes hz]⟩
  · intro hnone
    refine ⟨(Fault.integerText s).at span, Fault.at_kind _ span, ?_⟩
    rw [Host.call_int, Value.toInt?_of_not_denotes fun n hn => hnone _ hn (fits_toInt n)]

/-- The least integer is read back with white space around it, a sign and zeros before the digits change
nothing, and the magnitude of the least integer is refused, as a text with two signs is. -/
theorem integers_read_back_least :
    let setting : Setting := ⟨1, fun _ => .error default⟩
    let int? := fun s => (Host.withFrames setting 1).call (.builtin .int) [.string s] default default
    (Text.AllBlank "\t ".toList ∧ Text.AllBlank "\u3000".toList ∧ ∃ text : String,
      IntegerText text.toList (-2 ^ 63) ∧
      int? ("\t " ++ text ++ "\u3000") = .ok (.int Int64.minValue) default) ∧
    (Denotes " +007" 7 ∧ Fits 7 ∧ ∃ n : Int64, n.toInt = 7 ∧ int? " +007" = .ok (.int n) default) ∧
    ∀ s ∈ ["9223372036854775808", "+-5"], (∀ z, Denotes s z → ¬ Fits z) ∧
      ∃ d, d.kind = .type ∧ int? s = .error d default := by
  intro setting int?
  have hall := integers_read_back setting 0
  have hfits : Fits 7 := fits_toInt 7
  have hseven : Denotes " +007" 7 := by
    have hread : int64OfText? (Text.trim " +007".toList) = some 7 := by decide +kernel
    exact denotes_iff.2 (integerText_of_int64OfText? hread)
  have hnone : ∀ s ∈ ["9223372036854775808", "+-5"], int64OfText? (Text.trim s.toList) = none := by
    decide +kernel
  have hrefused (s : String) (hs : s ∈ ["9223372036854775808", "+-5"]) (z : Int) (hz : Denotes s z) :
      ¬ Fits z :=
    int64OfInt?_eq_none_iff_not_fits.1 ((denotes_iff.1 hz).int64OfText?.symm.trans (hnone s hs))
  refine ⟨⟨by decide +kernel, by decide +kernel, ?_⟩, ⟨hseven, hfits, ?_⟩, fun s hs => ?_⟩
  · obtain ⟨hcalls, -⟩ := hall.1 Int64.minValue "\t " "\u3000" (by decide +kernel) (by decide +kernel)
    obtain ⟨text, htext, -, hread⟩ := hcalls default default
    exact ⟨text, htext, hread⟩
  · exact (hall.2 " +007" default default).1 7 hseven hfits
  · exact ⟨hrefused s hs, (hall.2 s default default).2 (hrefused s hs)⟩

end ScriptLang
