import Reckon.Proofs.Session.Outcome
import Reckon.Proofs.Typing.Annotation

/-!
# Failed calls

A call that fails leaves the session as it was. All that it can leave behind are types on the
program that it was given, and these do not matter. So the failed calls can be taken out of any
history: the others get the same replies, and the session ends in the same state.

* `Session.eval_untyped`: the types that are attached to a program do not matter for its evaluation.
* `Workspace`: a session and the programs at hand, with the types that calls have left on them.
* `Workspace.failed_calls_erasable`: a failed call leaves the session as it was, and the failed
  calls of a history can be left out.
-/

namespace Reckon

/-- Attached types do not matter for the evaluation of a program. -/
theorem Session.eval_untyped (s : Session) (p : Program) :
    s.eval (p.map Expr.untyped) = s.eval p := by
  have hc := Program.check_untyped s.table p
  unfold Session.eval
  simp only [hc.result, hc.table]
  cases hr : (Program.check s.table p).result with
  | error e => rfl
  | ok u => rw [hc.tree u (hc.result.trans hr)]

/-! ## Histories -/

/-- Whether an operation has succeeded. -/
def Reply.isOk {α : Type} (r : Reply α) : Bool := r.result.isOk

theorem Reply.isOk_iff {α : Type} {r : Reply α} : r.isOk = true ↔ ∃ a, r.result = .ok a := by
  unfold Reply.isOk
  cases r.result with
  | error f => exact iff_of_false Bool.false_ne_true fun ⟨_, h⟩ => by cases h
  | ok a => exact iff_of_true rfl ⟨a, rfl⟩

/-- A session and the programs at hand. -/
structure Workspace where
  session : Session
  programs : Nat → Program

/-- A call on a workspace: running a source, or evaluating one of the programs at hand. -/
inductive Call
  | run (src : Source)
  | echo (src : Source)
  | eval (i : Nat)

namespace Workspace

/-- The reply to a call. -/
def answer (w : Workspace) : Call → Reply Value
  | .run src => w.session.run src
  | .echo src => w.session.echo src
  | .eval i => w.session.eval (w.programs i)

/-- The programs at hand after a call. The one that is evaluated has the types that its check has
attached, as far as it got. -/
def programsAfter (w : Workspace) : Call → Nat → Program
  | .eval i, j =>
    if j = i then (Program.check w.session.table (w.programs i)).tree else w.programs j
  | _, j => w.programs j

/-- The workspace after a call. -/
def next (w : Workspace) (c : Call) : Workspace := ⟨(w.answer c).session, w.programsAfter c⟩

/-- The workspace after some calls. -/
def after (w : Workspace) (cs : List Call) : Workspace := cs.foldl next w

/-- The replies to some calls in turn. -/
def replies (w : Workspace) : List Call → List (Reply Value)
  | [] => []
  | c :: cs => w.answer c :: (w.next c).replies cs

/-- The calls that do not fail, out of some calls in turn. -/
def succeeding (w : Workspace) : List Call → List Call
  | [] => []
  | c :: cs =>
    if (w.answer c).isOk then c :: (w.next c).succeeding cs else (w.next c).succeeding cs

theorem succeeding_of_error {w : Workspace} {c : Call} {f : Failure}
    (h : (w.answer c).result = .error f) (cs : List Call) :
    w.succeeding (c :: cs) = (w.next c).succeeding cs := by
  rw [succeeding, Reply.isOk, h]
  rfl

theorem succeeding_of_ok {w : Workspace} {c : Call} {v : Value} (h : (w.answer c).result = .ok v)
    (cs : List Call) : w.succeeding (c :: cs) = c :: (w.next c).succeeding cs := by
  rw [succeeding, Reply.isOk, h]
  rfl

/-! ## What a call depends on -/

/-- The same session, and the same programs up to the types on them. -/
structure Alike (w w' : Workspace) : Prop where
  session : w.session = w'.session
  programs : ∀ i, (w.programs i).map Expr.untyped = (w'.programs i).map Expr.untyped

variable {w w' : Workspace}

theorem map_untyped_programsAfter (w : Workspace) (c : Call) (j : Nat) :
    (w.programsAfter c j).map Expr.untyped = (w.programs j).map Expr.untyped := by
  cases c with
  | run | echo => rfl
  | eval i =>
    by_cases hj : j = i
    · simp only [programsAfter, hj, if_true, Program.untyped_tree]
    · simp only [programsAfter, hj, if_false]

/-- Alike workspaces give the same replies. -/
theorem Alike.answer_eq (h : w.Alike w') (c : Call) : w.answer c = w'.answer c := by
  cases c with
  | run src | echo src =>
    unfold answer
    rw [h.session]
  | eval i =>
    show w.session.eval (w.programs i) = w'.session.eval (w'.programs i)
    rw [← Session.eval_untyped, h.programs, Session.eval_untyped, h.session]

theorem Alike.next (h : w.Alike w') (c : Call) : (w.next c).Alike (w'.next c) where
  session := congrArg Reply.session (h.answer_eq c)
  programs j := by
    show (w.programsAfter c j).map _ = (w'.programsAfter c j).map _
    rw [map_untyped_programsAfter, map_untyped_programsAfter, h.programs]

/-- A call that fails leaves the session as it was, and prints nothing before it evaluates. -/
theorem answer_error {c : Call} {f : Failure} (h : (w.answer c).result = .error f) :
    (w.answer c).session = w.session ∧ (f.stage ≠ .eval → (w.answer c).printed = []) := by
  cases c with
  | run src | echo src => exact Session.runWith_error h
  | eval i => exact Session.eval_error h

/-- A call that fails makes no difference. -/
theorem next_alike_of_error {c : Call} {f : Failure} (h : (w.answer c).result = .error f) :
    (w.next c).Alike w :=
  ⟨(answer_error h).1, w.map_untyped_programsAfter c⟩

theorem Alike.trans {w₁ w₂ w₃ : Workspace} (h : w₁.Alike w₂) (h' : w₂.Alike w₃) : w₁.Alike w₃ :=
  ⟨h.session.trans h'.session, fun i => (h.programs i).trans (h'.programs i)⟩

/-- **A history without its failed calls**, in a workspace that may have other types on its
programs. -/
theorem Alike.succeeding (h : w.Alike w') (cs : List Call) :
    (w.after cs).Alike (w'.after (w.succeeding cs)) ∧
      w'.replies (w.succeeding cs) = (w.replies cs).filter Reply.isOk := by
  induction cs generalizing w w' with
  | nil => exact ⟨h, rfl⟩
  | cons c cs ih =>
    rw [replies]
    cases hr : (w.answer c).result with
    | error f =>
      have hfail : ¬ (w.answer c).isOk = true := by rw [Reply.isOk, hr]; exact Bool.false_ne_true
      rw [succeeding_of_error hr, List.filter_cons_of_neg hfail]
      exact ih ((next_alike_of_error hr).trans h)
    | ok v =>
      have hdone : (w.answer c).isOk = true := by rw [Reply.isOk, hr]; rfl
      obtain ⟨halike, hreplies⟩ := ih (h.next c)
      rw [succeeding_of_ok hr, List.filter_cons_of_pos hdone, replies, hreplies, h.answer_eq c]
      exact ⟨halike, rfl⟩

/-- **Failed calls can be erased.** A call that fails at any stage leaves the session as it was, and
has printed nothing if it fails before evaluation. In any history, leaving out the calls that fail
changes neither the session at the end nor the replies to the other calls. -/
theorem failed_calls_erasable (w : Workspace) :
    (∀ c f, (w.answer c).result = .error f →
      (w.next c).session = w.session ∧ (f.stage ≠ .eval → (w.answer c).printed = [])) ∧
    ∀ cs, (w.after (w.succeeding cs)).session = (w.after cs).session ∧
      w.replies (w.succeeding cs) = (w.replies cs).filter Reply.isOk := by
  refine ⟨fun c f h => answer_error h, fun cs => ?_⟩
  obtain ⟨halike, hreplies⟩ := Alike.succeeding (⟨rfl, fun _ => rfl⟩ : w.Alike w) cs
  exact ⟨halike.session.symm, hreplies⟩

/-- `x = 1` in front of a name that is not declared: `x` is declared no more than before. -/
theorem failed_declaration_erased :
    ((⟨.start .default, fun _ => [.assign .nowhere .unknown .assign (.var .nowhere .unknown "x")
        (.int .nowhere 1), .var .nowhere .unknown "y"]⟩ : Workspace).next (.eval 0)).session =
      .start .default := by
  have hx : Decl.standard.get? "x" = none := by decide +kernel
  have hy : (Decl.standard.save "x" (.var .int)).get? "y" = none := by decide +kernel
  refine ((failed_calls_erasable _).1 (.eval 0) (.check ⟨.nowhere, .unknownName "y"⟩) ?_).1
  simp [answer, Session.eval, Session.start, Program.check, Expr.check, assignTo, nameType, hx, hy]

end Workspace

end Reckon
