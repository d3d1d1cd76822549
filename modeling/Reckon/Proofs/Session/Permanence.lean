import Reckon.Proofs.Scope.Levels
import Reckon.Proofs.Session.Declarations

/-!
# Declarations are permanent

A check adds variables at the innermost level, under names that had no meaning, and touches nothing
else. So whatever a session has declared stays as it is. A checked program assigns to variables
only, so the names of constants keep their values, too.

* `Table.Extends`: what a check can do to a table, level by level.
* `Grows.extends`, `Checks.getAt?_eval`: checking and evaluating one expression.
* `Session.afterCalls`: a session after calls that run sources or evaluate programs.
* `Session.declarations_permanent`: what stays after a check, and after any calls.
-/

namespace Reckon

/-! ## Tables -/

/-- `t'` has the levels of `t` with all their bindings, and beyond these only variables at the
innermost level, whose names no level of `t` binds. -/
structure Table.Extends (t t' : Table Decl) : Prop where
  depth_eq : t'.depth = t.depth
  kept : ∀ {n x d}, t.getAt? n x = some d → t'.getAt? n x = some d
  added : ∀ {n x d}, t'.getAt? n x = some d → t.getAt? n x = some d ∨
    (n = t.depth ∧ (∃ ty, d = .var ty) ∧ ∀ m, t.getAt? m x = none)

theorem Table.Extends.refl (t : Table Decl) : t.Extends t := ⟨rfl, id, .inl⟩

/-- One more variable. -/
theorem Table.Extends.declare {t t' : Table Decl} {x : String} {ty : Ty} (h : t.Extends t')
    (hx : t'.get? x = none) : t.Extends (t'.save x (.var ty)) := by
  have hnew : ∀ n, t'.getAt? n x = none := Table.get?_eq_none_iff.1 hx
  have hold : ∀ n, t.getAt? n x = none := by
    intro n
    cases hd : t.getAt? n x with
    | none => rfl
    | some d => exact (h.kept hd).symm.trans (hnew n)
  refine ⟨(Table.depth_save t' x _).trans h.depth_eq, fun {n y d} hd => ?_, fun {n y d} hd => ?_⟩
  · have hne : y ≠ x := by
      rintro rfl
      rw [hold] at hd
      cases hd
    rw [Table.getAt?_save_of_ne hne]
    exact h.kept hd
  · rw [Table.getAt?_save] at hd
    split at hd
    · rename_i hat
      obtain ⟨rfl, rfl⟩ := hat
      cases hd
      exact .inr ⟨h.depth_eq, ⟨ty, rfl⟩, hold⟩
    · exact h.added hd

/-- **Growth, level by level.** -/
theorem Grows.extends {t t' : Table Decl} (h : Grows t t') : t.Extends t' := by
  induction h with
  | refl => exact .refl _
  | declare _ hx ih => exact ih.declare hx

/-! ## Environments -/

/-- A declaration that no assignment makes: a constant or an operator. -/
def Decl.IsBuiltin (d : Decl) : Prop := ∀ ty, d ≠ .var ty

/-- The target of an assignment is none of the names that are declared as something else than a
variable. -/
theorem Decl.IsBuiltin.ne_target {t : Table Decl} {x y : String} {d : Decl} (hd : d.IsBuiltin)
    (hx : t.get? x = some d) (hy : t.get? y = none ∨ ∃ ty, t.get? y = some (.var ty)) : x ≠ y := by
  rintro rfl
  rw [hx] at hy
  rcases hy with hy | ⟨ty, hy⟩
  · cases hy
  · exact hd ty (Option.some.inj hy)

theorem Expr.getAt?_eval_assign {l l' : Location} {ty ty' : Ty} {op : BinaryOp} {x y : String}
    {e : Expr} {dialect : Dialect} {env : Env} {v : Value} {n : Nat}
    (hr : ((assign l ty op (var l' ty' y) e).eval dialect env).result = .ok v) (hne : x ≠ y)
    (he : ∀ {w}, (e.eval dialect env).result = .ok w →
      (e.eval dialect env).env.getAt? n x = env.getAt? n x) :
    ((assign l ty op (var l' ty' y) e).eval dialect env).env.getAt? n x = env.getAt? n x := by
  obtain ⟨w, hw, -, henv⟩ := eval_assign_ok hr
  rw [henv, Table.getAt?_save_of_ne hne]
  exact he hw

/-- **One expression.** A checked expression rebinds no name that is declared as something else than
a variable. -/
theorem Checks.getAt?_eval {t t' : Table Decl} {e e' : Expr} {ty : Ty} {dialect : Dialect}
    {env : Env} {v : Value} {x : String} {d : Decl} (hc : Checks t e ty e' t')
    (hx : t.get? x = some d) (hd : d.IsBuiltin) (hr : (e'.eval dialect env).result = .ok v)
    (n : Nat) : (e'.eval dialect env).env.getAt? n x = env.getAt? n x := by
  induction hc generalizing env v with
  | int | bool | var | const => rfl
  | unary _ _ ih =>
    obtain ⟨w, hw, -, henv⟩ := Expr.eval_unary_ok hr
    rw [henv]
    exact ih hx hw
  | binary ha _ _ iha ihb =>
    obtain ⟨y, z, hy, hz, -, henv⟩ := Expr.eval_binary_ok hr
    rw [henv, ihb (ha.grows.get?_eq hx) hz]
    exact iha hx hy
  | declare hv hy ih =>
    have hne := hd.ne_target (hv.grows.get?_eq hx) (.inl hy)
    exact Expr.getAt?_eval_assign hr hne (ih hx)
  | reassign hv hy ih =>
    have hne := hd.ne_target (hv.grows.get?_eq hx) (.inr ⟨_, hy⟩)
    exact Expr.getAt?_eval_assign hr hne (ih hx)
  | compound hv _ hy _ ih =>
    have hne := hd.ne_target (hv.grows.get?_eq hx) (.inr ⟨_, hy⟩)
    exact Expr.getAt?_eval_assign hr hne (ih hx)
  | print _ ih =>
    obtain ⟨w, hw, -, henv⟩ := Expr.eval_print_ok hr
    rw [henv]
    exact ih hx hw

/-- **Programs.** -/
theorem Program.getAt?_eval {t : Table Decl} {p : Program} {dialect : Dialect} {env : Env}
    {v : Value} {x : String} {d : Decl} (hc : (Program.check t p).result = .ok ())
    (hx : t.get? x = some d) (hd : d.IsBuiltin)
    (hr : (Program.eval dialect env (Program.check t p).tree).result = .ok v) (n : Nat) :
    (Program.eval dialect env (Program.check t p).tree).env.getAt? n x = env.getAt? n x := by
  let Inv (t : Table Decl) (env' : Env) : Prop :=
    t.get? x = some d ∧ env'.getAt? n x = env.getAt? n x
  have hinv := Program.preserves Inv (fun _ _ => True) (fun e _ => ?_) hc ⟨hx, rfl⟩ hr
  · exact hinv.1.2
  · intro t t' e' ty env' v hchecks hi hr
    exact ⟨⟨hchecks.grows.get?_eq hi.1, (hchecks.getAt?_eval hi.1 hd hr n).trans hi.2⟩, trivial⟩

/-! ## Histories -/

/-- A call on a session: running a source, or evaluating a program. -/
inductive SessionCall
  | source (call : SourceCall)
  | eval (p : Program)

namespace Session

/-- The reply of a session to a call. -/
def reply (s : Session) : SessionCall → Reply Value
  | .source call => s.answer call
  | .eval p => s.eval p

/-- A session after some calls, each of which succeeds or fails. -/
def afterCalls (s : Session) (calls : List SessionCall) : Session :=
  calls.foldl (fun s call => (s.reply call).session) s

/-- **What a call does.** It leaves the session as it was, or what checking and evaluating a program
leaves. -/
theorem reply_session (s : Session) (call : SessionCall) :
    (s.reply call).session = s ∨
      ∃ p v, (Program.check s.table p).result = .ok () ∧
        (Program.eval s.settings.dialect s.env (Program.check s.table p).tree).result = .ok v ∧
        (s.reply call).session =
          { s with
            table := (Program.check s.table p).table
            env :=
              (Program.eval s.settings.dialect s.env (Program.check s.table p).tree).env } := by
  cases hr : (s.reply call).result with
  | error f =>
    cases call with
    | source call => exact .inl (answer_session_of_error hr)
    | eval p => exact .inl (eval_error hr).1
  | ok v =>
    cases call with
    | source call =>
      obtain ⟨p, -, hcheck, hrun, hsession⟩ := answer_ok hr
      exact .inr ⟨p, v, hcheck, hrun, hsession⟩
    | eval p =>
      obtain ⟨hcheck, hrun, hsession⟩ := eval_ok hr
      exact .inr ⟨p, v, hcheck, hrun, hsession⟩

theorem grows_reply (s : Session) (call : SessionCall) :
    Grows s.table (s.reply call).session.table := by
  rcases s.reply_session call with hsession | ⟨p, v, -, -, hsession⟩
  · rw [hsession]
    exact .refl _
  · rw [hsession]
    exact Program.check_grows s.table p

theorem getAt?_reply {s : Session} {x : String} {d : Decl} (hx : s.table.get? x = some d)
    (hd : d.IsBuiltin) (call : SessionCall) (n : Nat) :
    (s.reply call).session.env.getAt? n x = s.env.getAt? n x := by
  rcases s.reply_session call with hsession | ⟨p, v, hcheck, hrun, hsession⟩
  · rw [hsession]
  · rw [hsession]
    exact Program.getAt?_eval hcheck hx hd hrun n

/-- **All calls.** The table only grows. -/
theorem grows_afterCalls (s : Session) (calls : List SessionCall) :
    Grows s.table (s.afterCalls calls).table := by
  induction calls generalizing s with
  | nil => exact .refl _
  | cons call calls ih => exact (s.grows_reply call).trans (ih _)

/-- **All calls.** The names of constants and operators are bound as before. -/
theorem getAt?_afterCalls {s : Session} {x : String} {d : Decl} (hx : s.table.get? x = some d)
    (hd : d.IsBuiltin) (calls : List SessionCall) (n : Nat) :
    (s.afterCalls calls).env.getAt? n x = s.env.getAt? n x := by
  induction calls generalizing s with
  | nil => rfl
  | cons call calls ih =>
    have hx' := (s.grows_reply call).get?_eq hx
    exact (ih hx').trans (getAt?_reply hx hd call n)

/-- **Declarations are permanent.** A check, whether it succeeds or stops at an error, keeps the
levels of a table and all their bindings, and adds variables only, at the innermost level and under
names that no level has bound. After any calls on a session, all that was declared is declared as it
was, a variable with the type that it had; and a name that is declared as a constant or an operator
is bound at run time as it was, at every level. In a new session, these are the truth values and all
operators. -/
theorem declarations_permanent :
    (∀ (t : Table Decl) (p : Program), t.Extends (Program.check t p).table) ∧
    (∀ (s : Session) (calls : List SessionCall) (s' : Session), s' = s.afterCalls calls →
      s.table.Extends s'.table ∧
      (∀ x d, s.table.get? x = some d → s'.table.get? x = some d) ∧
      ∀ x d, s.table.get? x = some d → d.IsBuiltin → ∀ n, s'.env.getAt? n x = s.env.getAt? n x) ∧
    ∀ (settings : Settings) (calls : List SessionCall) (s' : Session),
      s' = (start settings).afterCalls calls →
      (∀ x d, (x, d) ∈ Decl.standardEntries → s'.table.get? x = some d) ∧
      s'.env.get? "true" = some (.bool true) ∧ s'.env.get? "false" = some (.bool false) := by
  refine ⟨fun t p => (Program.check_grows t p).extends, ?_, ?_⟩
  · rintro s calls s' rfl
    have hgrows := s.grows_afterCalls calls
    exact ⟨hgrows.extends, fun x d hx => hgrows.get?_eq hx,
      fun x d hx hd n => getAt?_afterCalls hx hd calls n⟩
  · rintro settings calls s' rfl
    have hbool : ∀ x b, (x, .const b) ∈ Decl.standardEntries →
        ((start settings).afterCalls calls).env.get? x = Env.standard.get? x := by
      intro x b hmem
      refine Table.get?_eq_of_getAt? fun n => ?_
      exact getAt?_afterCalls ((get?_standard_iff x _).2 hmem) (fun ty h => by cases h) calls n
    refine ⟨fun x d hmem => ?_, ?_, ?_⟩
    · exact ((start settings).grows_afterCalls calls).get?_eq ((get?_standard_iff x d).2 hmem)
    · rw [hbool "true" true (by simp [Decl.standardEntries])]
      exact (Env.get?_standard_iff _ _).2 (by simp)
    · rw [hbool "false" false (by simp [Decl.standardEntries])]
      exact (Env.get?_standard_iff _ _).2 (by simp)

private def withWord : Session :=
  ⟨.default, Decl.standard.save "x" (.var .int), Env.standard.save "x" (.int 1)⟩

private def reassigning : List SessionCall :=
  [.eval [.assign .nowhere .unknown .assign (.var .nowhere .unknown "x") (.bool .nowhere true)],
    .eval [.assign .nowhere .unknown .assign (.var .nowhere .unknown "true") (.int .nowhere 1)]]

/-- After `x = true` and `true = 1`, where `x` is a variable for words, it still is one, and `true`
is the truth value. -/
theorem declarations_after_reassigning :
    (withWord.afterCalls reassigning).table.get? "x" = some (.var .int) ∧
      (withWord.afterCalls reassigning).env.getAt? 0 "true" = some (.bool true) ∧
      ((start .default).afterCalls reassigning).table.get? "mul" =
        some (.binary ⟨.int, .int, .int⟩) := by
  obtain ⟨-, hstays, hstandard⟩ := declarations_permanent
  obtain ⟨-, hdeclared, hbound⟩ := hstays withWord reassigning _ rfl
  have hx : withWord.table.get? "x" = some (.var .int) := by decide +kernel
  have htrue : withWord.table.get? "true" = some (.const true) := by decide +kernel
  have hbuiltin : (Decl.const true).IsBuiltin := fun ty h => by cases h
  have hvalue : withWord.env.getAt? 0 "true" = some (.bool true) := by decide +kernel
  have hmul : ("mul", .binary ⟨.int, .int, .int⟩) ∈ Decl.standardEntries := by decide +kernel
  exact ⟨hdeclared "x" _ hx, (hbound "true" _ htrue hbuiltin 0).trans hvalue,
    (hstandard .default reassigning _ rfl).1 _ _ hmul⟩

end Session

end Reckon
