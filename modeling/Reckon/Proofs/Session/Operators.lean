import Reckon.Proofs.Evaluation.Integers
import Reckon.Proofs.RoundTrip
import Reckon.Proofs.Session.Arithmetic

/-!
# Integer operators in sessions

Running two integer literals with an operator between them gives what the operator gives on these
integers, in every session and up to the limits of words.

* `literal`, `exists_writes_literal`: a literal is read as an expression that denotes its integer.
* `operation`, `exists_program_operation`: the program of two literals and an operator.
* `Session.integer_operators`: what the operators give on words and in sessions.
-/

namespace Reckon

/-! ## Literals -/

/-- How an integer is written as an operand. A negative one stands in parentheses. -/
def literal (z : Int) : String := if z < 0 then "(" ++ toString z ++ ")" else toString z

/-- What a literal is read as, at no particular place. -/
def literalExpr (z : Int) : Expr :=
  if z < 0 then .unary .nowhere .unknown .minus (.int .nowhere (Int32.ofInt (-z)))
  else .int .nowhere (Int32.ofInt z)

section Literals

variable {z : Int}

theorem toList_toString_of_neg (hz : z < 0) :
    (toString z).toList = '-' :: Nat.toDigits 10 z.natAbs := by
  obtain ⟨n, rfl⟩ := Int.eq_negSucc_of_lt_zero hz
  show ("-" ++ Nat.repr (n + 1)).toList = _
  rw [String.toList_append, Nat.toList_repr]
  rfl

theorem toList_toString_of_nonneg (hz : 0 ≤ z) :
    (toString z).toList = Nat.toDigits 10 z.natAbs := by
  obtain ⟨n, rfl⟩ := Int.eq_ofNat_of_zero_le hz
  show (Nat.repr n).toList = _
  rw [Nat.toList_repr]
  rfl

theorem wordChars_ofInt (hz : 0 ≤ z) (hz' : z < 2 ^ 31) :
    wordChars (Int32.ofInt z) = Nat.toDigits 10 z.natAbs := by
  rw [wordChars, Int32.toInt_ofInt_of_le (by omega) hz', if_neg (Int.not_lt.2 hz)]

theorem literalExpr_printable (hz : z.natAbs < 2 ^ 31) : (literalExpr z).Printable := by
  unfold literalExpr
  split
  · show 0 ≤ (Int32.ofInt (-z)).toInt
    rw [Int32.toInt_ofInt_of_le] <;> omega
  · show 0 ≤ (Int32.ofInt z).toInt
    rw [Int32.toInt_ofInt_of_le] <;> omega

/-- The literal is how its expression is written. -/
theorem literalExpr_chars (hz : z.natAbs < 2 ^ 31) :
    (literalExpr z).chars = (literal z).toList := by
  unfold literalExpr literal
  split
  · rename_i hneg
    rw [String.toList_append, String.toList_append, toList_toString_of_neg hneg]
    show '(' :: ("-".toList ++ wordChars (Int32.ofInt (-z)) ++ [')']) = _
    rw [wordChars_ofInt (by omega) (by omega), Int.natAbs_neg]
    rfl
  · rename_i hneg
    rw [toList_toString_of_nonneg (by omega)]
    exact wordChars_ofInt (by omega) (by omega)

/-- What is read as a literal denotes its integer, wherever it stands. -/
theorem denotes_of_unlocated_eq {e : Expr} (h : e.unlocated = (literalExpr z).untyped.unlocated) :
    Denotes e z := by
  unfold literalExpr at h
  split at h
  · cases e with
    | unary l ty op e =>
      injection h with _ hty hop he
      subst hty hop
      cases e with
      | int l' n =>
        injection he with _ hn
        subst hn
        have hneg : Denotes (.unary l .unknown .minus (.int l' (Int32.ofInt (-z)))) (- -z) :=
          Denotes.int.negative
        rw [Int.neg_neg] at hneg
        exact hneg
      | _ => cases he
    | _ => cases h
  · cases e with
    | int l n =>
      injection h with _ hn
      subst hn
      exact .int
    | _ => cases h

theorem exists_writes_literal (hz : z.natAbs < 2 ^ 31) (loc : Location) :
    ∃ p, Writes (literalExpr z) loc p ∧ Denotes p.expr z := by
  obtain ⟨p, hp⟩ := exists_writes (literalExpr_printable hz) loc
  exact ⟨p, hp, denotes_of_unlocated_eq hp.expr⟩

end Literals

/-! ## Texts -/

/-- Two integers with an operator between them, as a text. -/
def operation (a : Int) (op : ArithOp) (b : Int) : String :=
  literal a ++ " " ++ (BinaryOp.arith op).spelling ++ " " ++ literal b

theorem exists_program_operation {a b : Int} (ha : a.natAbs < 2 ^ 31) (hb : b.natAbs < 2 ^ 31)
    (op : ArithOp) (name : String) :
    ∃ x y, (Source.ofString name (operation a op b)).program =
        .ok [.binary (.behind name (literal a ++ " ").toList) .unknown (.arith op) x y] ∧
      Denotes x a ∧ Denotes y b := by
  let at_op := ((Location.start name).afterAll (literalExpr a).chars).after ' '
  obtain ⟨p, hp, hpa⟩ := exists_writes_literal ha (.start name)
  obtain ⟨q, hq, hqb⟩ := exists_writes_literal hb
    ((at_op.afterAll (BinaryOp.arith op).symbol).after ' ')
  have hat : at_op = .behind name (literal a ++ " ").toList := by
    rw [String.toList_append, ← literalExpr_chars ha, ← Location.afterAll_start,
      Location.afterAll_append]
    rfl
  have htext : (operation a op b).toList = (literalExpr a).chars ++
      ' ' :: ((BinaryOp.arith op).symbol ++ ' ' :: (literalExpr b).chars) := by
    rw [literalExpr_chars ha, literalExpr_chars hb]
    simp [operation, BinaryOp.spelling]
  have hend : Delimited [] := by
    rintro c ⟨⟩
  have hscans := hp.scans_infixed hq hend
  rw [ScansAs, scan_nil, List.append_nil, ← htext] at hscans
  let whole : Phrase := .infixed ⟨.binary (.arith op), String.ofList (BinaryOp.arith op).symbol,
    at_op⟩ (.arith op) p q rfl
  have hordered : whole.WellPrecedenced .standard :=
    infixed_wellPrecedenced hp.ordered hq.ordered hp.enclosed hq.enclosed
  have hscan : (Source.ofString name (operation a op b)).scan =
      .ok ([whole].flatMap Phrase.yield ++
        [.eofAt ((Location.start name).afterAll (operation a op b).toList)]) := by
    rw [List.flatMap_singleton]
    exact hscans
  refine ⟨p.expr, q.expr, ?_, hpa, hqb⟩
  rw [← hat]
  exact Source.program_eq_ok_iff.2 ⟨_, hscan, parse_eq_ok_iff.2
    ⟨[whole], _, .single hordered, rfl, rfl, rfl⟩⟩

/-! ## Sessions -/

namespace Session

/-- An operator between two expressions that denote integers. -/
theorem eval_operation {s : Session} (hs : Agree s.table s.env) {x y : Expr} {a b : Int}
    (hx : Denotes x a) (hy : Denotes y b) (op : ArithOp) (l : Location) :
    (s.eval [.binary l .unknown (.arith op) x y]).result =
      (op.apply (.ofInteger a) (.ofInteger b)).mapError fun e => .eval ⟨l, e⟩ := by
  obtain ⟨e', he⟩ := hx.binary_checks hy s.table hs.unarySig_eq hs.binarySig_eq
  have hcheck : (Program.check s.table [.binary l .unknown (.arith op) x y]).result = .ok () := by
    rw [(ChecksAll.cons he (.nil _)).check_eq]
  have heval : (Program.eval s.settings.dialect s.env
      (Program.check s.table [.binary l .unknown (.arith op) x y]).tree).result =
      (op.apply (.ofInteger a) (.ofInteger b)).mapError fun e => ⟨l, e⟩ := by
    rw [Program.eval_tree]
    simp only [Program.eval, Program.evalFrom, Expr.eval, hx.eval, hy.eval, Run.yield_andThen]
    show ((Run.located s.env l (op.apply (.ofInteger a) (.ofInteger b))).andThen
      fun v env => .yield env v).result = _
    cases op.apply (.ofInteger a) (.ofInteger b) <;> rfl
  cases h : op.apply (.ofInteger a) (.ofInteger b) with
  | error e =>
    rw [h] at heval
    rw [eval_of_eval_error hcheck heval]
    rfl
  | ok v =>
    rw [h] at heval
    rw [eval_of_ok hcheck heval]
    rfl

/-- **Running an operation** in a session that source runs lead to. -/
theorem run_operation (settings : Settings) (calls : List SourceCall) (name : String) (op : ArithOp)
    {a b : Int} (ha : a.natAbs < 2 ^ 31) (hb : b.natAbs < 2 ^ 31) :
    (((start settings).afterAll calls).run (.ofString name (operation a op b))).result =
      ((op.unbounded a b).map .ofInteger).mapError fun e =>
        .eval ⟨.behind name (literal a ++ " ").toList, e⟩ := by
  have hagree : Agree ((start settings).afterAll calls).table
      ((start settings).afterAll calls).env :=
    agree_afterAll agree_standard calls
  obtain ⟨x, y, hprogram, hx, hy⟩ := exists_program_operation ha hb op name
  rw [run, runWith_result hprogram, eval_operation hagree hx hy, Value.ofInteger, Value.ofInteger,
    ArithOp.apply_int, Int32.toInt_ofInt_of_le (by omega) (by omega),
    Int32.toInt_ofInt_of_le (by omega) (by omega)]

/-- **Integer operators.** On two words an operator gives what it gives over the integers, modulo
`2 ^ 32`, and fails only where a divisor is zero or a shift count is negative. Quotient and
remainder belong together, for every nonzero divisor. A shift by 32 places or more to the left
leaves nothing, and one to the right rounds down. Running two literals with the operator between
them gives the same value, or fails at the operator for the same reason, whatever sources were run
before. -/
theorem integer_operators :
    (∀ (d : Dialect) (op : ArithOp) (a b : Int32), (BinaryOp.arith op).apply d (.int a) (.int b) =
      (op.unbounded a.toInt b.toInt).map .ofInteger) ∧
    (∀ z : Int, (Int32.ofInt z).toInt ≡ z [ZMOD 2 ^ 32]) ∧
    (∀ (d : Dialect) (a b : Int32), b ≠ 0 → ∃ q r : Int32,
      (BinaryOp.arith .div).apply d (.int a) (.int b) = .ok (.int q) ∧
      (BinaryOp.arith .mod).apply d (.int a) (.int b) = .ok (.int r) ∧
      a.toInt ≡ q.toInt * b.toInt + r.toInt [ZMOD 2 ^ 32] ∧ |r.toInt| < |b.toInt| ∧
      (r = 0 ∨ r.toInt.sign = a.toInt.sign)) ∧
    (∀ d : Dialect,
      (BinaryOp.arith .div).apply d (.int Int32.minValue) (.int (-1)) = .ok (.int Int32.minValue) ∧
      (BinaryOp.arith .mod).apply d (.int Int32.minValue) (.int (-1)) = .ok (.int 0)) ∧
    (∀ (d : Dialect) (a b : Int32), 32 ≤ b.toInt →
      (BinaryOp.arith .shiftLeft).apply d (.int a) (.int b) = .ok (.int 0)) ∧
    (∀ (d : Dialect) (a b : Int32), 0 ≤ b.toInt → ∃ n : Int32,
      (BinaryOp.arith .shiftRight).apply d (.int a) (.int b) = .ok (.int n) ∧
      n.toInt = ⌊(a.toInt : ℚ) / 2 ^ b.toInt.toNat⌋) ∧
    ∀ (settings : Settings) (calls : List SourceCall) (name : String) (op : ArithOp) (a b : Int),
      a.natAbs < 2 ^ 31 → b.natAbs < 2 ^ 31 →
      (((start settings).afterAll calls).run (.ofString name (operation a op b))).result =
        ((op.unbounded a b).map .ofInteger).mapError fun e =>
          .eval ⟨.behind name (literal a ++ " ").toList, e⟩ :=
  ⟨fun _ op a b => op.apply_int a b, ArithOp.toInt_ofInt_modEq,
    fun _ a _ hb => ArithOp.exists_quotient_remainder a hb, fun _ => ⟨rfl, rfl⟩,
    fun _ a _ hb => ArithOp.shiftLeft_of_le a hb, fun _ a _ hb => ArithOp.shiftRight_eq_floor a hb,
    fun settings calls name op _ _ ha hb => run_operation settings calls name op ha hb⟩

/-- The least word by seven, shifts by large counts, and texts that hold the largest words. -/
theorem integer_operators_near_limits :
    (∃ q r : Int32, (BinaryOp.arith .div).apply ⟨false, false⟩ (.int Int32.minValue) (.int 7) =
        .ok (.int q) ∧
      (BinaryOp.arith .mod).apply ⟨false, false⟩ (.int Int32.minValue) (.int 7) = .ok (.int r) ∧
      Int32.minValue.toInt ≡ q.toInt * (7 : Int32).toInt + r.toInt [ZMOD 2 ^ 32] ∧
      |r.toInt| < |(7 : Int32).toInt| ∧
      (r = 0 ∨ r.toInt.sign = Int32.minValue.toInt.sign)) ∧
    (BinaryOp.arith .shiftLeft).apply ⟨false, false⟩ (.int (-1)) (.int 2147483647) =
      .ok (.int 0) ∧
    (∃ n : Int32, (BinaryOp.arith .shiftRight).apply ⟨false, false⟩ (.int (-1)) (.int 40) =
        .ok (.int n) ∧ n.toInt = ⌊((-1 : Int32).toInt : ℚ) / 2 ^ (40 : Int32).toInt.toNat⌋) ∧
    ((start .default).run (.ofString "a" "(-2147483647) - 2147483647")).result = .ok (.int 2) ∧
    ((start .default).run (.ofString "a" "(-2147483647) >> (-1)")).result =
      .error (.eval ⟨⟨"a", 1, 15⟩, .negativeShift⟩) := by
  obtain ⟨-, -, hquotient, -, hleft, hright, hrun⟩ := integer_operators
  refine ⟨hquotient _ _ 7 (by decide), hleft _ _ _ (by decide), hright _ _ _ (by decide), ?_, ?_⟩
  · have htext : operation (-2147483647) .sub 2147483647 = "(-2147483647) - 2147483647" := by
      decide +kernel
    have hvalue : Value.ofInteger (-2147483647 - 2147483647) = .int 2 := by decide +kernel
    have hresult := hrun .default [] "a" .sub (-2147483647) 2147483647 (by decide) (by decide)
    rw [htext] at hresult
    exact hresult.trans (congrArg Except.ok hvalue)
  · have htext : operation (-2147483647) .shiftRight (-1) = "(-2147483647) >> (-1)" := by
      decide +kernel
    have hloc : Location.behind "a" (literal (-2147483647) ++ " ").toList = ⟨"a", 1, 15⟩ := by
      decide +kernel
    have hresult := hrun .default [] "a" .shiftRight (-2147483647) (-1) (by decide) (by decide)
    rw [htext, hloc] at hresult
    exact hresult

end Session

end Reckon
