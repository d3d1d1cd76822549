import Reckon.Session

/-!
# Outcomes of runs

What a run can do to a session: it fails at some stage and leaves the session as it was, or it
checks and evaluates the whole program and leaves the table and the environment of these.

* `Session.eval_ok`, `Session.eval_error`: the two outcomes of evaluating a program.
* `Session.runWith_ok`, `Session.runWith_error`: the two outcomes of running a source.
-/

namespace Reckon

namespace Session

variable {s : Session} {p : Program} {src : Source} {echo : Bool} {v : Value} {f : Failure}

/-! ## Programs -/

theorem eval_of_check_error {e : Located CheckError}
    (hc : (Program.check s.table p).result = .error e) :
    s.eval p = ⟨.error (.check e), s, [], []⟩ := by
  simp only [eval, hc]

theorem eval_of_eval_error {e : Located EvalError} (hc : (Program.check s.table p).result = .ok ())
    (hr : (Program.eval s.settings.dialect s.env (Program.check s.table p).tree).result =
      .error e) :
    s.eval p = ⟨.error (.eval e), s,
      (Program.eval s.settings.dialect s.env (Program.check s.table p).tree).printed,
      s.traced ((Program.check s.table p).tree.map .checked)⟩ := by
  simp only [eval, hc, hr]

theorem eval_of_ok (hc : (Program.check s.table p).result = .ok ())
    (hr : (Program.eval s.settings.dialect s.env (Program.check s.table p).tree).result = .ok v) :
    s.eval p = ⟨.ok v,
      { s with
        table := (Program.check s.table p).table
        env := (Program.eval s.settings.dialect s.env (Program.check s.table p).tree).env },
      (Program.eval s.settings.dialect s.env (Program.check s.table p).tree).printed,
      s.traced ((Program.check s.table p).tree.map .checked)⟩ := by
  simp only [eval, hc, hr]

/-- A program that yields a value is checked and evaluated, and leaves what these two leave. -/
theorem eval_ok (h : (s.eval p).result = .ok v) :
    (Program.check s.table p).result = .ok () ∧
      (Program.eval s.settings.dialect s.env (Program.check s.table p).tree).result = .ok v ∧
      (s.eval p).session =
        { s with
          table := (Program.check s.table p).table
          env := (Program.eval s.settings.dialect s.env (Program.check s.table p).tree).env } := by
  cases hc : (Program.check s.table p).result with
  | error e => rw [eval_of_check_error hc] at h; cases h
  | ok u =>
    cases hr : (Program.eval s.settings.dialect s.env (Program.check s.table p).tree).result with
    | error e => rw [eval_of_eval_error hc hr] at h; cases h
    | ok w =>
      rw [eval_of_ok hc hr] at h ⊢
      cases h
      exact ⟨rfl, rfl, rfl⟩

/-- A program that fails leaves the session as it was, and has printed nothing if it fails before it
is evaluated. -/
theorem eval_error (h : (s.eval p).result = .error f) :
    (s.eval p).session = s ∧ (f.stage ≠ .eval → (s.eval p).printed = []) := by
  cases hc : (Program.check s.table p).result with
  | error e =>
    rw [eval_of_check_error hc]
    exact ⟨rfl, fun _ => rfl⟩
  | ok u =>
    cases hr : (Program.eval s.settings.dialect s.env (Program.check s.table p).tree).result with
    | error e =>
      rw [eval_of_eval_error hc hr] at h ⊢
      cases h
      exact ⟨rfl, fun hstage => absurd rfl hstage⟩
    | ok w => rw [eval_of_ok hc hr] at h; cases h

/-! ## Sources -/

theorem parse_result (s : Session) (src : Source) : (s.parse src).result = src.program := by
  unfold parse Source.program
  cases src.tokens with
  | error f => rfl
  | ok ts => cases hp : parseTokens ts <;> simp [hp]

theorem runWith_of_unread (h : src.program = .error f) :
    s.runWith echo src = ⟨.error f, s, [], (s.parse src).trace⟩ := by
  have hparse := (s.parse_result src).trans h
  simp only [runWith, hparse]

theorem runWith_of_error (hp : src.program = .ok p) (h : (s.eval p).result = .error f) :
    s.runWith echo src = ⟨.error f, (s.eval p).session, (s.eval p).printed,
      (s.parse src).trace ++ (s.eval p).trace⟩ := by
  have hparse := (s.parse_result src).trans hp
  simp only [runWith, hparse, h, List.append_nil]

theorem runWith_of_ok (hp : src.program = .ok p) (h : (s.eval p).result = .ok v) :
    s.runWith echo src = ⟨.ok v, (s.eval p).session, (s.eval p).printed ++ echoed echo v,
      (s.parse src).trace ++ (s.eval p).trace⟩ := by
  have hparse := (s.parse_result src).trans hp
  simp only [runWith, hparse, h]

/-- A run ends as the evaluation of its program does. -/
theorem runWith_result (hp : src.program = .ok p) :
    (s.runWith echo src).result = (s.eval p).result := by
  cases hr : (s.eval p).result with
  | error f => rw [runWith_of_error hp hr]
  | ok w => rw [runWith_of_ok hp hr]

theorem runWith_trace (hp : src.program = .ok p) :
    (s.runWith echo src).trace = (s.parse src).trace ++ (s.eval p).trace := by
  cases hr : (s.eval p).result with
  | error f => rw [runWith_of_error hp hr]
  | ok w => rw [runWith_of_ok hp hr]

/-- A run that yields a value has read a program, which yields this value. -/
theorem runWith_ok (h : (s.runWith echo src).result = .ok v) :
    ∃ p, src.program = .ok p ∧ (s.eval p).result = .ok v ∧
      (s.runWith echo src).session = (s.eval p).session := by
  cases hp : src.program with
  | error f => rw [runWith_of_unread hp] at h; cases h
  | ok p =>
    refine ⟨p, rfl, ?_⟩
    cases hr : (s.eval p).result with
    | error f => rw [runWith_of_error hp hr] at h; cases h
    | ok w =>
      rw [runWith_of_ok hp hr] at h ⊢
      cases h
      exact ⟨rfl, rfl⟩

/-- A run that fails leaves the session as it was, and has printed nothing if it fails before its
program is evaluated. -/
theorem runWith_error (h : (s.runWith echo src).result = .error f) :
    (s.runWith echo src).session = s ∧ (f.stage ≠ .eval → (s.runWith echo src).printed = []) := by
  cases hp : src.program with
  | error f =>
    rw [runWith_of_unread hp]
    exact ⟨rfl, fun _ => rfl⟩
  | ok p =>
    cases hr : (s.eval p).result with
    | error f' =>
      rw [runWith_of_error hp hr] at h ⊢
      cases h
      exact eval_error hr
    | ok w => rw [runWith_of_ok hp hr] at h; cases h

end Session

end Reckon
