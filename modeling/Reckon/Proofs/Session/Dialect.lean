import Reckon.Proofs.Evaluation.Dialect
import Reckon.Proofs.Grammar.Tree
import Reckon.Proofs.Session.Outcome
import Reckon.Proofs.Token.Lexeme
import Reckon.Proofs.Typing.Annotation

/-!
# Sessions in two dialects

Two sessions with the same declarations and bindings that differ in their dialect only. They read
and check every source alike. They also evaluate it alike, unless it contains an operator for which
their dialects have different rules.

* `Session.inDialect`, `Reply.inDialect`: the same session in another dialect, and the same reply
  by it.
* `Session.parse_inDialect`, `Session.runWith_error_inDialect`: what a run does before it evaluates.
* `Session.eval_inDialect`, `Session.runWith_inDialect`: from programs that are evaluated alike to
  runs that are alike.
* `Session.dialect_noninterference`: a rule is observed in the programs that contain its operator,
  and in no others.
-/

namespace Reckon

/-- The same session with other rules for the operators that can be chosen. -/
def Session.inDialect (s : Session) (d : Dialect) : Session :=
  { s with settings := { s.settings with dialect := d } }

/-- The same reply by a session that has another dialect. -/
def Reply.inDialect {α : Type} (r : Reply α) (d : Dialect) : Reply α :=
  { r with session := r.session.inDialect d }

/-- The program of the source contains the operator `op`. -/
def Source.Uses (src : Source) (op : BinaryOp) : Prop :=
  ∃ p, src.program = .ok p ∧ ∃ e ∈ p, op ∈ e.operators

namespace Session

variable {s : Session} {d : Dialect} {p : Program} {src : Source}

/-! ## Reading and checking -/

theorem parse_inDialect (s : Session) (d : Dialect) (src : Source) :
    (s.inDialect d).parse src = (s.parse src).inDialect d := by
  unfold parse
  cases src.tokens with
  | error f => rfl
  | ok ts =>
    dsimp only
    cases parseTokens ts <;> rfl

/-- A program fails to be checked in every dialect or in none. -/
theorem eval_inDialect_of_check_error {e : Located CheckError}
    (h : (Program.check s.table p).result = .error e) :
    (s.inDialect d).eval p = (s.eval p).inDialect d := by
  have h' : (Program.check (s.inDialect d).table p).result = .error e := h
  rw [eval_of_check_error h, eval_of_check_error h']
  rfl

/-- Whatever the dialect is, a program that checks does not fail before it is evaluated, and its
trace is the same. -/
theorem eval_of_check_ok (s : Session) (h : (Program.check s.table p).result = .ok ()) :
    (s.eval p).trace = s.traced ((Program.check s.table p).tree.map .checked) ∧
      ∀ f, (s.eval p).result = .error f → f.stage = .eval := by
  cases hr : (Program.eval s.settings.dialect s.env (Program.check s.table p).tree).result with
  | error e =>
    rw [eval_of_eval_error h hr]
    refine ⟨rfl, fun f hf => ?_⟩
    cases hf
    rfl
  | ok v =>
    rw [eval_of_ok h hr]
    exact ⟨rfl, fun f hf => by cases hf⟩

theorem eval_trace_inDialect (s : Session) (d : Dialect) (p : Program) :
    ((s.inDialect d).eval p).trace = (s.eval p).trace ∧
      ∀ f, f.stage ≠ .eval →
        (((s.inDialect d).eval p).result = .error f ↔ (s.eval p).result = .error f) := by
  cases h : (Program.check s.table p).result with
  | error e =>
    rw [eval_inDialect_of_check_error h]
    exact ⟨rfl, fun _ _ => Iff.rfl⟩
  | ok u =>
    obtain ⟨htrace, hstage⟩ := s.eval_of_check_ok h
    obtain ⟨htrace', hstage'⟩ := (s.inDialect d).eval_of_check_ok h
    refine ⟨htrace'.trans htrace.symm, fun f hf => ?_⟩
    exact iff_of_false (fun hfail => hf (hstage' f hfail)) (fun hfail => hf (hstage f hfail))

/-- **Before evaluation** a run does the same in every dialect: it traces the same, and fails for
the same cause if it fails. -/
theorem runWith_error_inDialect (s : Session) (d : Dialect) (src : Source) (echo : Bool) :
    ((s.inDialect d).runWith echo src).trace = (s.runWith echo src).trace ∧
      ∀ f, f.stage ≠ .eval → (((s.inDialect d).runWith echo src).result = .error f ↔
        (s.runWith echo src).result = .error f) := by
  have hparse := s.parse_inDialect d src
  have htrace : ((s.inDialect d).parse src).trace = (s.parse src).trace := by rw [hparse]; rfl
  cases hp : src.program with
  | error f =>
    rw [runWith_of_unread hp, runWith_of_unread hp, htrace]
    exact ⟨rfl, fun _ _ => Iff.rfl⟩
  | ok p =>
    obtain ⟨heval, hfail⟩ := s.eval_trace_inDialect d p
    rw [runWith_trace hp, runWith_trace hp, runWith_result hp, runWith_result hp, htrace, heval]
    exact ⟨rfl, hfail⟩

/-! ## Evaluating -/

/-- What is evaluated alike in two dialects gets the same reply. -/
theorem eval_inDialect
    (h : Program.eval d s.env p = Program.eval s.settings.dialect s.env p) :
    (s.inDialect d).eval p = (s.eval p).inDialect d := by
  cases hc : (Program.check s.table p).result with
  | error e => exact eval_inDialect_of_check_error hc
  | ok u =>
    have htree : Program.eval d s.env (Program.check s.table p).tree =
        Program.eval s.settings.dialect s.env (Program.check s.table p).tree := by
      rw [Program.eval_tree, Program.eval_tree, h]
    simp only [eval, inDialect, hc, htree]
    cases (Program.eval s.settings.dialect s.env (Program.check s.table p).tree).result <;> rfl

theorem runWith_inDialect
    (h : ∀ p, src.program = .ok p → (s.inDialect d).eval p = (s.eval p).inDialect d)
    (echo : Bool) : (s.inDialect d).runWith echo src = (s.runWith echo src).inDialect d := by
  have hparse := s.parse_inDialect d src
  cases hp : src.program with
  | error f =>
    rw [runWith_of_unread hp, runWith_of_unread hp, hparse]
    rfl
  | ok p =>
    have heval := h p hp
    cases hr : (s.eval p).result with
    | error f =>
      have hr' : ((s.inDialect d).eval p).result = .error f := by rw [heval]; exact hr
      rw [runWith_of_error hp hr, runWith_of_error hp hr', heval, hparse]
      rfl
    | ok v =>
      have hr' : ((s.inDialect d).eval p).result = .ok v := by rw [heval]; exact hr
      rw [runWith_of_ok hp hr, runWith_of_ok hp hr', heval, hparse]
      rfl

/-- **Noninterference of dialects.** Let a session and the same session in another dialect `d` run a
source, with or without showing its value. They scan and parse the source alike, they check every
program alike, and their runs trace the same and fail before evaluation for the same causes. If each
of the two rules is the same in both dialects or its operator, `!=` or `<<=`, does not stand in the
program of the source, then the replies are the same: the value or the failure, what is printed, and
the declarations and bindings after the run. So they are if the program is interpreted without being
checked, where a failure leaves the bindings that were made before it. -/
theorem dialect_noninterference (s : Session) (d : Dialect) (src : Source) :
    (s.inDialect d).parse src = (s.parse src).inDialect d ∧
    (∀ p, Program.check (s.inDialect d).table p = Program.check s.table p) ∧
    (∀ echo, ((s.inDialect d).runWith echo src).trace = (s.runWith echo src).trace ∧
      ∀ f, f.stage ≠ .eval → (((s.inDialect d).runWith echo src).result = .error f ↔
        (s.runWith echo src).result = .error f)) ∧
    ((d.notEqualIsEqual = s.settings.dialect.notEqualIsEqual ∨ ¬ src.Uses .notEqual) →
      (d.shiftLeftAssignAdds = s.settings.dialect.shiftLeftAssignAdds ∨
        ¬ src.Uses (.arithAssign .shiftLeft)) →
      (∀ echo, (s.inDialect d).runWith echo src = (s.runWith echo src).inDialect d) ∧
        ∀ p, src.program = .ok p → (s.inDialect d).interpret p = (s.interpret p).inDialect d) := by
  refine ⟨s.parse_inDialect d src, fun _ => rfl, s.runWith_error_inDialect d src,
    fun hne hshift => ?_⟩
  have heval : ∀ p, src.program = .ok p →
      Program.eval d s.env p = Program.eval s.settings.dialect s.env p := by
    intro p hp
    refine Program.evalFrom_agree (fun e he op hop => ⟨?_, ?_⟩) .unit s.env
    · rintro rfl
      exact hne.resolve_right (not_not_intro ⟨p, hp, e, he, hop⟩)
    · rintro rfl
      exact hshift.resolve_right (not_not_intro ⟨p, hp, e, he, hop⟩)
  refine ⟨runWith_inDialect fun p hp => eval_inDialect (heval p hp), fun p hp => ?_⟩
  simp only [interpret, inDialect, heval p hp]
  rfl

private def shifted : Source := .ofString "a" "2 << 1 != 4"

private theorem scan_shifted :
    shifted.scan = .ok [⟨.integer, "2", ⟨"a", 1, 1⟩⟩,
      ⟨.binary (.arith .shiftLeft), "<<", ⟨"a", 1, 3⟩⟩, ⟨.integer, "1", ⟨"a", 1, 6⟩⟩,
      ⟨.binary .notEqual, "!=", ⟨"a", 1, 8⟩⟩, ⟨.integer, "4", ⟨"a", 1, 11⟩⟩,
      .eofAt ⟨"a", 1, 12⟩] := by
  iterate 5 refine Cursor.scan_cons rfl (by decide) ?_
  exact Cursor.scan_of_eof rfl rfl

private theorem program_shifted :
    shifted.program = .ok [.binary ⟨"a", 1, 8⟩ .unknown .notEqual
      (.binary ⟨"a", 1, 3⟩ .unknown (.arith .shiftLeft) (.int ⟨"a", 1, 1⟩ 2) (.int ⟨"a", 1, 6⟩ 1))
      (.int ⟨"a", 1, 11⟩ 4)] := by
  refine Source.program_eq_ok_iff.2 ⟨_, scan_shifted, parse_eq_ok_iff.2 ⟨[
    .infixed ⟨.binary .notEqual, "!=", ⟨"a", 1, 8⟩⟩ .notEqual
      (.infixed ⟨.binary (.arith .shiftLeft), "<<", ⟨"a", 1, 3⟩⟩ (.arith .shiftLeft)
        (.atom ⟨.integer, "2", ⟨"a", 1, 1⟩⟩ (.int ⟨"a", 1, 1⟩ 2) rfl)
        (.atom ⟨.integer, "1", ⟨"a", 1, 6⟩⟩ (.int ⟨"a", 1, 6⟩ 1) rfl) rfl)
      (.atom ⟨.integer, "4", ⟨"a", 1, 11⟩⟩ (.int ⟨"a", 1, 11⟩ 4) rfl) rfl],
    [.eofAt _], .single ⟨⟨trivial, trivial, by decide, by decide⟩, trivial, by decide, by decide⟩,
    rfl, rfl, rfl⟩⟩

/-- The rule for `<<=` makes no difference to `2 << 1 != 4`. -/
theorem dialect_of_shift_and_notEqual :
    ((start .default).inDialect ⟨true, false⟩).run shifted =
      ((start .default).run shifted).inDialect ⟨true, false⟩ := by
  have hunused : ¬ shifted.Uses (.arithAssign .shiftLeft) := by
    rintro ⟨p, hp, e, he, hop⟩
    rw [program_shifted] at hp
    cases hp
    rw [List.mem_singleton.1 he] at hop
    revert hop
    decide
  exact ((dialect_noninterference (start .default) ⟨true, false⟩ shifted).2.2.2 (.inl rfl)
    (.inr hunused)).1 _

end Session

end Reckon
