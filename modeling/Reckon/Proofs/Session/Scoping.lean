import Mathlib.Data.List.Permutation
import Reckon.Proofs.Scope.Bracket
import Reckon.Proofs.Session.Outcome
import Reckon.Proofs.Typing.Growth

/-!
# Scopes of a session

Scopes that are opened in both tables of a session and closed again leave no trace. Checking and
evaluating bind names at the innermost level only, so what they do between the two is lost with the
scopes, whether they succeed or fail and however scopes are opened and closed meanwhile.

* `Expr.eval_saved`, `Program.check_saved`: checking and evaluating are bindings in a row.
* `SessionStep`, `Session.step?`, `Session.afterSteps`: a session taking step after step.
* `Session.Within.step`, `Session.Within.afterSteps`: what steps inside a bracket keep.
* `Session.scopes_bracketed`: a session after a whole bracket, and during one.
-/

namespace Reckon

/-! ## Checking and evaluating -/

theorem Run.saved_andThen {α β : Type} {env : Env} {r : Run α} {f : α → Env → Run β}
    (h : Table.Saved env r.env) (hf : ∀ a env', Table.Saved env' (f a env').env) :
    Table.Saved env (r.andThen f).env := by
  unfold Run.andThen
  cases r.result with
  | error e => exact h
  | ok a => exact h.trans (hf a r.env)

theorem Run.saved_located {α : Type} (env : Env) (loc : Location) (o : Except EvalError α) :
    Table.Saved env (Run.located env loc o).env := by
  cases o <;> exact .refl env

/-- **Evaluating an expression is binding names**, whether it yields a value or stops. -/
theorem Expr.eval_saved (d : Dialect) (e : Expr) (env : Env) :
    Table.Saved env (e.eval d env).env := by
  induction e generalizing env with
  | int | bool | var => exact .refl env
  | unary l ty op operand ih => exact Run.saved_andThen (ih env) fun _ env' => .refl env'
  | print l operand ih => exact Run.saved_andThen (ih env) fun _ env' => .refl env'
  | binary l ty op left right ihl ihr =>
    refine Run.saved_andThen (ihl env) fun _ env' => ?_
    exact Run.saved_andThen (ihr env') fun _ env' => Run.saved_located env' _ _
  | assign l ty op target value _ ih =>
    cases target with
    | var l' ty' name =>
      refine Run.saved_andThen (ih env) fun _ env' => ?_
      refine Run.saved_andThen (Run.saved_located env' _ _) fun v env' => ?_
      exact (Table.Saved.refl env').save name v
    | int | bool | unary | binary | assign | print => exact .refl env

theorem Program.evalFrom_saved (d : Dialect) (p : Program) (last : Value) (env : Env) :
    Table.Saved env (Program.evalFrom d last env p).env := by
  induction p generalizing last env with
  | nil => exact .refl env
  | cons e p ih => exact Run.saved_andThen (e.eval_saved d env) fun v env' => ih v env'

theorem Grows.saved {t t' : Table Decl} (h : Grows t t') : Table.Saved t t' := by
  induction h with
  | refl => exact .refl _
  | declare _ _ ih => exact ih.save _ _

theorem Program.check_saved (t : Table Decl) (p : Program) :
    Table.Saved t (Program.check t p).table :=
  (Program.check_grows t p).saved

/-! ## Steps of a session -/

/-- An operation on one of the tables of a session, or one that checks or evaluates a program. -/
inductive SessionStep
  | onTable (a : TableStep Decl)
  | onEnv (a : TableStep Value)
  | check (p : Program)
  | interpret (p : Program)
  | eval (p : Program)

namespace SessionStep

/-- The steps that are taken on the table of declarations. -/
def tableSteps (as : List SessionStep) : List (TableStep Decl) :=
  as.filterMap fun
    | onTable a => some a
    | _ => none

/-- The steps that are taken on the environment. -/
def envSteps (as : List SessionStep) : List (TableStep Value) :=
  as.filterMap fun
    | onEnv a => some a
    | _ => none

theorem tableSteps_cons (a : SessionStep) (as : List SessionStep) :
    tableSteps (a :: as) = tableSteps [a] ++ tableSteps as :=
  List.filterMap_append (l := [a])

theorem envSteps_cons (a : SessionStep) (as : List SessionStep) :
    envSteps (a :: as) = envSteps [a] ++ envSteps as :=
  List.filterMap_append (l := [a])

end SessionStep

open SessionStep TableStep

namespace Session

/-- The session after a step, if the step can be made. A program that fails has been stepped over
all the same. -/
def step? (s : Session) : SessionStep → Option Session
  | .onTable a => (s.table.step? a).map fun t => { s with table := t }
  | .onEnv a => (s.env.step? a).map fun env => { s with env := env }
  | .check p => some { s with table := (Program.check s.table p).table }
  | .interpret p => some (s.interpret p).session
  | .eval p => some (s.eval p).session

/-- The session after some steps. One that cannot be made leaves the session as it is. -/
def afterSteps (s : Session) (as : List SessionStep) : Session :=
  as.foldl (fun s a => (s.step? a).getD s) s

theorem afterSteps_append (s : Session) (as bs : List SessionStep) :
    s.afterSteps (as ++ bs) = (s.afterSteps as).afterSteps bs :=
  List.foldl_append

/-- A step that declares a name at a level that is not open. -/
def Misses (s : Session) (a : SessionStep) : Prop :=
  (∃ level name v, a = .onTable (.declare level name v) ∧ (s.table.depth : Int) < level) ∨
    ∃ level name v, a = .onEnv (.declare level name v) ∧ (s.env.depth : Int) < level

/-- Every one of some steps in turn can be made, unless it declares a name at a level that is not
open. -/
def Proceeds (s : Session) : List SessionStep → Prop
  | [] => True
  | a :: as => (s.step? a = none → s.Misses a) ∧ ((s.step? a).getD s).Proceeds as

theorem proceeds_append {s : Session} {as bs : List SessionStep} :
    s.Proceeds (as ++ bs) ↔ s.Proceeds as ∧ (s.afterSteps as).Proceeds bs := by
  induction as generalizing s with
  | nil => exact (and_iff_right trivial).symm
  | cons a as ih =>
    rw [List.cons_append, Proceeds, Proceeds, ih, and_assoc]
    rfl

/-! ## Inside a bracket -/

/-- `s'` is `s` with a level and `k` more open on top of its table, and a level and `m` more on top
of its environment. -/
structure Within (s : Session) (k m : Nat) (s' : Session) : Prop where
  settings_eq : s'.settings = s.settings
  table : Table.Stacked (k + 1) s.table s'.table
  env : Table.Stacked (m + 1) s.env s'.env

variable {s s' : Session} {k m : Nat}

theorem Within.eval (h : s.Within k m s') (p : Program) : s.Within k m (s'.eval p).session := by
  cases hr : (s'.eval p).result with
  | error f =>
    rw [(eval_error hr).1]
    exact h
  | ok v =>
    rw [(eval_ok hr).2.2]
    exact ⟨h.settings_eq, h.table.saved (Program.check_saved _ p),
      h.env.saved (Program.evalFrom_saved _ _ _ _)⟩

/-- **One step** inside a bracket: the session below stays, and the step is made unless it names a
level that is not open. -/
theorem Within.step {a : SessionStep} {k' m' : Nat} (h : s.Within k m s')
    (hk : (tableSteps [a]).foldlM openAfter k = some k')
    (hm : (envSteps [a]).foldlM openAfter m = some m')
    (habove : ∀ b ∈ tableSteps [a], b.DeclaresAbove s.table.depth)
    (habove' : ∀ b ∈ envSteps [a], b.DeclaresAbove s.env.depth) :
    s.Within k' m' ((s'.step? a).getD s') ∧ (s'.step? a = none → s'.Misses a) := by
  cases a with
  | onTable b =>
    cases hm
    have hk : b.openAfter k = some k' := by simpa [tableSteps] using hk
    rcases h.table.step hk (habove b List.mem_cons_self) with
      ⟨t, ht, hstacked⟩ | ⟨hnone, rfl, level, name, v, rfl, hlevel⟩
    · have hstep : s'.step? (.onTable b) = some { s' with table := t } := by rw [step?, ht]; rfl
      rw [hstep]
      exact ⟨⟨h.settings_eq, hstacked, h.env⟩, nofun⟩
    · have hstep : s'.step? (.onTable (.declare level name v)) = none := by rw [step?, hnone]; rfl
      rw [hstep]
      exact ⟨h, fun _ => .inl ⟨level, name, v, rfl, hlevel⟩⟩
  | onEnv b =>
    cases hk
    have hm : b.openAfter m = some m' := by simpa [envSteps] using hm
    rcases h.env.step hm (habove' b List.mem_cons_self) with
      ⟨env, henv, hstacked⟩ | ⟨hnone, rfl, level, name, v, rfl, hlevel⟩
    · have hstep : s'.step? (.onEnv b) = some { s' with env := env } := by rw [step?, henv]; rfl
      rw [hstep]
      exact ⟨⟨h.settings_eq, h.table, hstacked⟩, nofun⟩
    · have hstep : s'.step? (.onEnv (.declare level name v)) = none := by rw [step?, hnone]; rfl
      rw [hstep]
      exact ⟨h, fun _ => .inr ⟨level, name, v, rfl, hlevel⟩⟩
  | check p =>
    cases hk
    cases hm
    exact ⟨⟨h.settings_eq, h.table.saved (Program.check_saved _ p), h.env⟩, nofun⟩
  | interpret p =>
    cases hk
    cases hm
    exact ⟨⟨h.settings_eq, h.table, h.env.saved (Program.evalFrom_saved _ _ _ _)⟩, nofun⟩
  | eval p =>
    cases hk
    cases hm
    exact ⟨h.eval p, nofun⟩

/-- **Some steps** inside a bracket. -/
theorem Within.afterSteps {as : List SessionStep} {k' m' : Nat} (h : s.Within k m s')
    (hk : (tableSteps as).foldlM openAfter k = some k')
    (hm : (envSteps as).foldlM openAfter m = some m')
    (habove : ∀ b ∈ tableSteps as, b.DeclaresAbove s.table.depth)
    (habove' : ∀ b ∈ envSteps as, b.DeclaresAbove s.env.depth) :
    s.Within k' m' (s'.afterSteps as) ∧ s'.Proceeds as := by
  induction as generalizing s' k m with
  | nil =>
    cases hk
    cases hm
    exact ⟨h, trivial⟩
  | cons a as ih =>
    rw [tableSteps_cons, List.foldlM_append] at hk
    rw [envSteps_cons, List.foldlM_append] at hm
    rw [tableSteps_cons] at habove
    rw [envSteps_cons] at habove'
    obtain ⟨k₁, hk₁, hk⟩ := Option.bind_eq_some_iff.1 hk
    obtain ⟨m₁, hm₁, hm⟩ := Option.bind_eq_some_iff.1 hm
    obtain ⟨hfirst, hmiss⟩ := h.step hk₁ hm₁ (fun b hb => habove b (List.mem_append_left _ hb))
      fun b hb => habove' b (List.mem_append_left _ hb)
    obtain ⟨hrest, hproceeds⟩ := ih hfirst hk hm
      (fun b hb => habove b (List.mem_append_right _ hb))
      fun b hb => habove' b (List.mem_append_right _ hb)
    exact ⟨hrest, hmiss, hproceeds⟩

/-! ## The ends of a bracket -/

theorem within_opened {opens : List SessionStep}
    (hopens : opens.Perm [.onTable .openScope, .onEnv .openScope]) :
    s.Within 0 0 (s.afterSteps opens) ∧ s.Proceeds opens := by
  have hwithin : s.Within 0 0 ⟨s.settings, s.table.openScope, s.env.openScope⟩ :=
    ⟨rfl, s.table.stacked_openScope, Table.stacked_openScope s.env⟩
  rcases List.perm_pair.1 hopens with rfl | rfl
  · exact ⟨hwithin, nofun, nofun, trivial⟩
  · exact ⟨hwithin, nofun, nofun, trivial⟩

theorem step?_closeTable {t : Table Decl} (h : Table.Stacked 1 t s.table) :
    s.step? (.onTable .closeScope) = some { s with table := t } := by
  obtain ⟨t', hclose, hstacked⟩ := h.close?
  have hclose : s.table.step? .closeScope = some t := hstacked.eq ▸ hclose
  rw [step?, hclose]
  rfl

theorem step?_closeEnv {env : Env} (h : Table.Stacked 1 env s.env) :
    s.step? (.onEnv .closeScope) = some { s with env := env } := by
  obtain ⟨env', hclose, hstacked⟩ := h.close?
  have hclose : s.env.step? .closeScope = some env := hstacked.eq ▸ hclose
  rw [step?, hclose]
  rfl

/-- Two steps that are made one after the other. -/
theorem afterSteps_pair {a b : SessionStep} {s₁ s₂ : Session} (ha : s.step? a = some s₁)
    (hb : s₁.step? b = some s₂) : s.afterSteps [a, b] = s₂ ∧ s.Proceeds [a, b] := by
  simp [afterSteps, Proceeds, ha, hb]

theorem Within.closed {closes : List SessionStep} (h : s.Within 0 0 s')
    (hcloses : closes.Perm [.onTable .closeScope, .onEnv .closeScope]) :
    s'.afterSteps closes = s ∧ s'.Proceeds closes := by
  obtain ⟨settings, table, env⟩ := s'
  obtain ⟨rfl, htable, henv⟩ := h
  rcases List.perm_pair.1 hcloses with rfl | rfl
  · exact afterSteps_pair (step?_closeTable htable) (step?_closeEnv henv)
  · exact afterSteps_pair (step?_closeEnv henv) (step?_closeTable htable)

/-- **Scopes are bracketed.** A scope is opened in both tables of a session, in either order, and in
the end both are closed. In between, scopes are opened and closed in balance, names are saved, or
declared above the old levels, and programs are checked, interpreted and evaluated, whether they
succeed or fail. Then the session is what it was. All steps are made, except that a name cannot be
declared at a level that is not open. And at no point in between do the old levels of the two tables
bind a name to anything else than before. -/
theorem scopes_bracketed (s : Session) {opens steps closes : List SessionStep}
    (hopens : opens.Perm [.onTable .openScope, .onEnv .openScope])
    (hcloses : closes.Perm [.onTable .closeScope, .onEnv .closeScope])
    (htable : Balanced s.table.depth (tableSteps steps))
    (henv : Balanced s.env.depth (envSteps steps)) :
    s.afterSteps (opens ++ steps ++ closes) = s ∧ s.Proceeds (opens ++ steps ++ closes) ∧
      ∀ front, front <+: steps → ∀ name,
        (∀ n, n ≤ s.table.depth →
          (s.afterSteps (opens ++ front)).table.getAt? n name = s.table.getAt? n name) ∧
        ∀ n, n ≤ s.env.depth →
          (s.afterSteps (opens ++ front)).env.getAt? n name = s.env.getAt? n name := by
  obtain ⟨hopened, hopening⟩ := within_opened (s := s) hopens
  obtain ⟨hwithin, hproceeds⟩ :=
    hopened.afterSteps htable.closed henv.closed htable.above henv.above
  obtain ⟨hclosed, hclosing⟩ := hwithin.closed hcloses
  rw [List.append_assoc]
  refine ⟨?_, ?_, fun front hfront name => ?_⟩
  · rw [afterSteps_append, afterSteps_append, hclosed]
  · exact proceeds_append.2 ⟨hopening, proceeds_append.2 ⟨hproceeds, hclosing⟩⟩
  · obtain ⟨k, hk, habove⟩ := htable.of_isPrefix (hfront.filterMap _)
    obtain ⟨m, hm, habove'⟩ := henv.of_isPrefix (hfront.filterMap _)
    obtain ⟨hduring, -⟩ := hopened.afterSteps hk hm habove habove'
    rw [afterSteps_append]
    exact ⟨fun n hn => hduring.table.getAt?_eq hn name, fun n hn => hduring.env.getAt?_eq hn name⟩

/-- `true = 5`, without a check. -/
private def assigningTrue : SessionStep :=
  .interpret [.assign .nowhere .unknown .assign (.var .nowhere .unknown "true") (.int .nowhere 5)]

/-- `true = 5`, a name without a meaning while one more scope is open in the environment, and a
declaration. -/
private def stepsInScope : List SessionStep :=
  [assigningTrue, .onEnv .openScope, .eval [.var .nowhere .unknown "y"],
    .onTable (.declare 1 "x" (.var .int)), .onEnv .closeScope]

/-- In the scope `true` becomes `5`. Outside it is `true` all the time. -/
theorem scopes_bracketed_assigning_true :
    (start .default).afterSteps ([.onEnv .openScope, .onTable .openScope] ++ stepsInScope ++
        [.onTable .closeScope, .onEnv .closeScope]) = start .default ∧
      ((start .default).afterSteps
        ([.onEnv .openScope, .onTable .openScope] ++ [assigningTrue])).env.getAt? 1 "true" =
          some (.int 5) ∧
      ((start .default).afterSteps
        ([.onEnv .openScope, .onTable .openScope] ++ [assigningTrue])).env.getAt? 0 "true" =
          some (.bool true) := by
  have htable : Balanced (start .default).table.depth (tableSteps stepsInScope) := by
    refine ⟨rfl, ?_⟩
    rintro a ha level name v rfl
    cases List.mem_singleton.1 ha
    decide +kernel
  have henv : Balanced (start .default).env.depth (envSteps stepsInScope) := by
    refine ⟨rfl, ?_⟩
    rintro a ha level name v rfl
    simp [envSteps, stepsInScope, assigningTrue] at ha
  obtain ⟨hafter, -, hduring⟩ :=
    scopes_bracketed (start .default) (.swap _ _ _) (.refl _) htable henv
  refine ⟨hafter, by decide +kernel, ?_⟩
  rw [(hduring [assigningTrue] ⟨_, rfl⟩ "true").2 0 (Nat.zero_le _)]
  decide +kernel

end Session

end Reckon
