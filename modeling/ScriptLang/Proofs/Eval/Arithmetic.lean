import ScriptLang.Proofs.Eval.Run
import ScriptLang.Proofs.Token.Malformed
import ScriptLang.Proofs.Value.Exactness

/-!
# Computing with integers

What an expression computes from integers is what exact arithmetic computes from them, or the run ends
with a report: integers are read from the text and from variables, converted from other values, counted,
and joined by operators, and none of this ever wraps.

## Main definitions

* `BinaryOp.onIntegers?`: exact arithmetic
* `Amounts`: the integer that exact arithmetic makes of an expression

## Main results

* `Amounts.exact`: expressions are evaluated exactly
* `integer_arithmetic_exact`: the same for operators, for literals and for conversions
-/

namespace ScriptLang

/-- Exact arithmetic. Only these operators make integers of integers. -/
def BinaryOp.onIntegers? (op : BinaryOp) (a b : Int) : Option Int :=
  match op with
  | add => some (a + b)
  | sub => some (a - b)
  | mul => some (a * b)
  | mod => if b = 0 then none else some (a.tmod b)
  | _ => none

namespace Value

theorem remainder?_exact {a b : Int64} (hb : b.toInt ≠ 0) :
    Exact (a.toInt.tmod b.toInt) (remainder? a b) ∨
      ∃ fault, remainder? a b = .error fault ∧ fault.kind = .overflow := by
  rw [remainder?, if_neg fun h => hb (congrArg Int64.toInt h)]
  split
  · exact Or.inr ⟨_, rfl, rfl⟩
  · exact Or.inl (ofInt?_exact rfl _)

end Value

/-- The result is the integer, or a report that there is none. -/
inductive Settles (z : Int) (m' : Machine) : EStateM.Result Diagnostic Machine Value → Prop
  | value {n : Int64} : n.toInt = z → Settles z m' (.ok (.int n) m')
  | report {d : Diagnostic} {m : Machine} :
    d.kind = .overflow ∨ d.kind = .type ∨ d.kind = .stackExhausted → Settles z m' (.error d m)

namespace Settles

variable {a z : Int} {m m' m'' : Machine}

theorem bind {e : Eval Value} {k : Value → Eval Value} (h : Settles a m' (e m))
    (hk : ∀ n : Int64, n.toInt = a → Settles z m'' (k (.int n) m')) :
    Settles z m'' ((e >>= k) m) := by
  rw [Eval.bind_eq]
  generalize e m = result at h
  cases h with
  | value hn => exact hk _ hn
  | report hkind => exact .report hkind

theorem ofExceptAt {result : Except Fault Value} (h : Value.Exact z result) (span : Span) :
    Settles z m (Eval.ofExceptAt span result m) := by
  cases h with
  | value hn => exact .value hn
  | @overflow fault _ hkind => exact .report (Or.inl ((Fault.at_kind fault span).trans hkind))

/-- An operator on two integers gives what exact arithmetic does. -/
theorem applyBinary {op : BinaryOp} {a b : Int64} (h : op.onIntegers? a.toInt b.toInt = some z)
    (span : Span) : Settles z m (ScriptLang.applyBinary op (.int a) (.int b) span m) := by
  have hexact := Value.operatorsExact a b
  cases op with
  | add =>
    cases h
    exact ofExceptAt hexact.sum span
  | sub =>
    cases h
    exact ofExceptAt hexact.difference span
  | mul =>
    cases h
    exact ofExceptAt hexact.product span
  | mod =>
    rw [BinaryOp.onIntegers?] at h
    split at h
    · cases h
    · next hb =>
      cases h
      obtain hrest | ⟨fault, hfault, hkind⟩ := Value.remainder?_exact (a := a) hb
      · exact ofExceptAt hrest span
      · have hmod : Value.binary? .mod (.int a) (.int b) = .error fault := hfault
        rw [ScriptLang.applyBinary, hmod]
        · exact .report (Or.inl ((Fault.at_kind fault span).trans hkind))
        · exact nofun
        · exact nofun
  | _ => cases h

/-- A built-in is called in a frame of its own. -/
theorem callWithin {b : Builtin} {args : List Value} (setting : Setting) (frames : Nat) (span : Span)
    (h : (∃ n, b.outcome? args = .ok (.int n, none) ∧ n.toInt = z) ∨
      ∃ fault, b.outcome? args = .error fault ∧ (fault.kind = .overflow ∨ fault.kind = .type)) :
    Settles z m (ScriptLang.callWithin setting frames (.builtin b) args span m) := by
  cases frames with
  | zero =>
    exact .report (Or.inr (Or.inr (Fault.at_kind (.tooManyFrames setting.maxFrames) span)))
  | succ frames =>
    have hcall : ScriptLang.callWithin setting (frames + 1) (.builtin b) args span =
        Eval.inFrame (Eval.mapDiagnostic (·.withSpan span) (b.run args)) := rfl
    rw [hcall, Eval.inFrame, Eval.mapDiagnostic, Builtin.run]
    obtain ⟨n, hn, hvalue⟩ | ⟨fault, hfault, hkind⟩ := h
    · rw [hn]
      exact .value hvalue
    · rw [hfault]
      have hat : (fault.at span).kind = fault.kind := Fault.at_kind fault span
      exact .report (hkind.imp hat.trans fun htype => Or.inl (hat.trans htype))

end Settles

/-- A call of a built-in by its name. -/
theorem evalExpr_call_builtin {host : Host} {scope : ScopeId} {b : Builtin} {m m' : Machine}
    {span word : Span} {arg : Expr} {u : Value} (hname : m.store.lookup? scope b.name = none)
    (harg : evalExpr host scope arg m = .ok u m') :
    evalExpr host scope (.call span (.name word b.name) [arg]) m =
      host.call (.builtin b) [u] span m' := by
  rw [evalExpr, evalExpr, Eval.bind_eq, readName_eq, hname, Builtin.ofName?_name]
  dsimp only
  rw [Eval.bind_eq, evalArgs, Eval.bind_eq, harg]
  rfl

/-- What exact arithmetic makes of an expression, and the machine that its evaluation leaves. -/
inductive Amounts (setting : Setting) (frames : Nat) (scope : ScopeId) :
    Machine → Expr → Int → Machine → Prop
  | literal {m : Machine} {span : Span} {n : Int64} :
    Amounts setting frames scope m (.int span n) n.toInt m
  | reading {m : Machine} {span : Span} {name : String} {n : Int64} :
    m.store.lookup? scope name = some (.int n) →
    Amounts setting frames scope m (.name span name) n.toInt m
  | negation {m m' : Machine} {span : Span} {e : Expr} {a : Int} :
    Amounts setting frames scope m e a m' →
    Amounts setting frames scope m (.unary span .negate e) (-a) m'
  | operation {m m' m'' : Machine} {span : Span} {op : BinaryOp} {left right : Expr} {a b z : Int} :
    Amounts setting frames scope m left a m' → Amounts setting frames scope m' right b m'' →
    op.onIntegers? a b = some z →
    Amounts setting frames scope m (.binary span left op right) z m''
  | assignment {m m' : Machine} {span : Span} {target : Ident} {e : Expr} {n : Int64} :
    Amounts setting frames scope m e n.toInt m' →
    Amounts setting frames scope m (.assignName span target e) n.toInt
      { m' with store := m'.store.assign scope target.name (.int n) }
  /-- The conversion of what an argument evaluates to. -/
  | conversion {m m' : Machine} {span word : Span} {arg : Expr} {u : Value} {z : Int} :
    m.store.lookup? scope Builtin.int.name = none →
    evalExpr (Host.withFrames setting frames) scope arg m = .ok u m' → u.Converts z →
    Amounts setting frames scope m (.call span (.name word Builtin.int.name) [arg]) z m'
  /-- The length of a string, which has room in memory. -/
  | length {m m' : Machine} {span word : Span} {arg : Expr} {s : String} :
    m.store.lookup? scope Builtin.len.name = none →
    evalExpr (Host.withFrames setting frames) scope arg m = .ok (.string s) m' → s.length < 2 ^ 63 →
    Amounts setting frames scope m (.call span (.name word Builtin.len.name) [arg]) s.length m'

namespace Amounts

variable {setting : Setting} {frames : Nat} {scope : ScopeId}

theorem exact {m m' : Machine} {e : Expr} {z : Int} (h : Amounts setting frames scope m e z m') :
    Settles z m' (evalExpr (Host.withFrames setting frames) scope e m) := by
  induction h with
  | literal => exact .value rfl
  | @reading m span name n hname =>
    rw [evalExpr, readName_eq, hname]
    exact .value rfl
  | negation _ ih =>
    rw [evalExpr]
    refine ih.bind fun n hn => ?_
    rw [← hn]
    exact .ofExceptAt (Value.ofInt?_exact rfl _) _
  | @operation m m' m'' span op left right a b z _ _ hop ihleft ihright =>
    rw [evalExpr]
    refine ihleft.bind fun na ha => ?_
    subst ha
    have hundecided : isDecided op (.int na) = false := by
      cases op with
      | and | or => cases hop
      | _ => rfl
    simp only [hundecided, Bool.false_eq_true, if_false]
    refine ihright.bind fun nb hb => ?_
    subst hb
    exact .applyBinary hop span
  | assignment _ ih =>
    rw [evalExpr]
    refine ih.bind fun n hn => ?_
    obtain rfl := Int64.toInt_inj.1 hn
    exact .value rfl
  | conversion hname harg hu =>
    have houtcome (u : Value) : Builtin.int.outcome? [u] = u.toInt?.bind fun v => .ok (v, none) := rfl
    rw [evalExpr_call_builtin hname harg]
    refine .callWithin setting frames _ ?_
    obtain ⟨n, hn, hvalue⟩ | ⟨-, fault, hfault, hkind⟩ := hu.toInt?
    · exact Or.inl ⟨n, by rw [houtcome, hn]; rfl, hvalue⟩
    · exact Or.inr ⟨fault, by rw [houtcome, hfault]; rfl, hkind⟩
  | length hname harg hs =>
    rw [evalExpr_call_builtin hname harg]
    obtain ⟨n, hn, hvalue⟩ := Value.length?_string hs
    cases hn
    exact .callWithin setting frames _ (Or.inl ⟨_, rfl, hvalue⟩)

end Amounts

/-- **Integer arithmetic is exact or reported.** The operators give back the exact integer or report that
64 bits do not hold it, and nothing but arithmetic on integers, a conversion or a length makes an integer.
An integer literal is the number that its digits denote; digits that denote a larger one are refused. What
a program computes from literals, variables, conversions and lengths is what exact arithmetic computes, or
the run ends with a report. -/
theorem integer_arithmetic_exact :
    (∀ a b, Value.OperatorsExact a b) ∧
    (∀ op u v n, Value.binary? op u v = .ok (.int n) →
      (op = .add ∨ op = .sub ∨ op = .mul ∨ op = .mod) ∧ ∃ a b, u = .int a ∧ v = .int b) ∧
    (∀ u n, Value.negate? u = .ok (.int n) → ∃ a, u = .int a) ∧
    (∀ b args n line, Builtin.outcome? b args = .ok (.int n, line) →
      (∃ u, b = .int ∧ args = [u] ∧ u.Converts n.toInt) ∨
        ∃ s, b = .len ∧ args = [.string s] ∧ (s.length < 2 ^ 63 → n.toInt = s.length)) ∧
    (∀ p digits rest,
      (natOfDigits digits < 2 ^ 63 → ∃ n : Int64, n.toInt = natOfDigits digits ∧
        integerLiteral p digits rest = .ok (.int n, p.after digits, rest)) ∧
      (2 ^ 63 ≤ natOfDigits digits → ∃ d, d.kind = .lexing ∧
        integerLiteral p digits rest = .error d)) ∧
    (∀ source p s span n, Program.parse source = .ok p → s ∈ p.stmts →
      (Node.stmt s).Contains (.expr (.int span n)) → ∃ before digits rest,
        source.text.toList = before ++ digits ++ rest ∧ digits ≠ [] ∧
        (∀ d ∈ digits, d.isDigit = true) ∧ n.toInt = natOfDigits digits) ∧
    ∀ setting frames scope m e z m', Amounts setting frames scope m e z m' →
      Settles z m' (evalExpr (Host.withFrames setting frames) scope e m) := by
  refine ⟨Value.operatorsExact, fun _ _ _ _ => Value.exists_of_binary?_int,
    fun _ _ => Value.exists_of_negate?_int, fun _ _ _ _ => Builtin.exists_of_outcome?_int,
    fun p digits rest => ⟨fun hsmall => ?_, fun hlarge => ?_⟩, ?_, fun _ _ _ _ _ _ _ => Amounts.exact⟩
  · have hmax : Int64.maxValue.toInt = 9223372036854775807 := Int64.toInt_maxValue
    exact ⟨_, Int64.toInt_ofInt_of_le (by omega) (by omega), integerLiteral_inRange (by omega)⟩
  · have hmax : Int64.maxValue.toInt = 9223372036854775807 := Int64.toInt_maxValue
    exact ⟨_, Fault.at_kind .., integerLiteral_outOfRange (by omega)⟩
  · intro source p s span n hparse hs hliteral
    obtain ⟨stream, token, htokenize, htoken, hlexeme⟩ :=
      Program.exists_literal_of_parse hparse hs hliteral
    have hstart : Position.start = Position.counted [] := rfl
    obtain ⟨front, d, hwritten, -⟩ := (lexes_of_tokenize htokenize).written hstart token htoken
    obtain ⟨before, rest, htext, -⟩ := hwritten.placed
    obtain ⟨hdigits, hvalue⟩ := hwritten.digits hlexeme
    exact ⟨before, front ++ [d], rest, htext, by simp, hdigits, hvalue⟩

end ScriptLang
