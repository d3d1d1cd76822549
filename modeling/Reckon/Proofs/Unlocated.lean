import Reckon.Proofs.Grammar.Tree
import Reckon.Proofs.Session.Outcome

/-!
# Locations do not matter

Locations are carried along to the errors that are reported and are read by nothing else. So each
stage does the same to tokens and trees without locations, up to where it reports an error.

* `Token.unlocated`, `Expr.unlocated`, `Failure.unlocated`: what belongs to no source.
* `parse_unlocated`: parsing.
* `Program.check_unlocated`, `Program.evalFrom_unlocated`: checking and evaluation.
* `Session.eval_unlocated`: what a session does with a program.
-/

namespace Reckon

open Token (Kind)

/-! ## Without locations -/

/-- A token that belongs to no source. -/
def Token.unlocated (t : Token) : Token := { t with loc := .nowhere }

/-- An expression that belongs to no source. -/
def Expr.unlocated : Expr → Expr
  | int _ n => int .nowhere n
  | bool _ b => bool .nowhere b
  | var _ t x => var .nowhere t x
  | unary _ t op e => unary .nowhere t op e.unlocated
  | binary _ t op a b => binary .nowhere t op a.unlocated b.unlocated
  | assign _ t op a b => assign .nowhere t op a.unlocated b.unlocated
  | print _ e => print .nowhere e.unlocated

/-- A cause that is reported nowhere. -/
def Located.unlocated {ε : Type} (e : Located ε) : Located ε := ⟨.nowhere, e.cause⟩

/-- A result with `f` applied to what it yields, and its error reported nowhere. -/
def unlocatedResult {ε α β : Type} (f : α → β) :
    Except (Located ε) α → Except (Located ε) β
  | .error e => .error e.unlocated
  | .ok a => .ok (f a)

theorem unlocatedResult_eq_ok {ε α β : Type} {f : α → β} {r : Except (Located ε) α} {b : β}
    (h : unlocatedResult f r = .ok b) : ∃ a, r = .ok a ∧ f a = b := by
  cases r with
  | error e => cases h
  | ok a => cases h; exact ⟨a, rfl, rfl⟩

/-- A parsing step without locations. -/
def ParseStep.unlocated {α : Type} (f : α → α) (s : ParseStep α) : ParseStep α :=
  ⟨unlocatedResult f s.result, s.rest.map Token.unlocated⟩

/-! ## Parsing -/

theorem join_unlocated (left right : Expr) (t : Token) :
    join left.unlocated t.unlocated right.unlocated =
      unlocatedResult Expr.unlocated (join left t right) := by
  have hkind : t.unlocated.kind = t.kind := rfl
  unfold join
  rw [hkind]
  cases t.kind with
  | binary op =>
    dsimp only
    split <;> rfl
  | _ => rfl

theorem closeParen_unlocated (loc : Location) (s : ParseStep Expr) :
    closeParen .nowhere (s.unlocated Expr.unlocated) =
      (closeParen loc s).unlocated Expr.unlocated := by
  obtain ⟨result, rest⟩ := s
  cases result with
  | error e => cases rest <;> rfl
  | ok e =>
    cases rest with
    | nil => rfl
    | cons t rest =>
      have hkind : t.unlocated.kind = t.kind := rfl
      simp only [closeParen, ParseStep.unlocated, unlocatedResult, List.map_cons, hkind]
      split <;> rfl

theorem ParseStep.map_unlocated {α β : Type} {u : α → α} {v : β → β} (f f' : α → β)
    (h : ∀ a, f' (u a) = v (f a)) (s : ParseStep α) :
    (s.unlocated u).map f' = (s.map f).unlocated v := by
  obtain ⟨result, rest⟩ := s
  cases result with
  | error e => rfl
  | ok a => simp [unlocated, map, unlocatedResult, Except.map, h]

section Expressions

variable {g : Grouping} {fin : Location} {ts : List Token}

theorem seed_unlocated (t : Token)
    (h : ∀ k, parseExpr g .nowhere k (ts.map Token.unlocated) =
      (parseExpr g fin k ts).unlocated Expr.unlocated) :
    seed g .nowhere t.unlocated (ts.map Token.unlocated) =
      (seed g fin t ts).unlocated Expr.unlocated := by
  have hkind : t.unlocated.kind = t.kind := rfl
  have hspelling : t.unlocated.spelling = t.spelling := rfl
  have hloc : t.unlocated.loc = .nowhere := rfl
  have hprint : ∀ s : ParseStep Expr, (s.unlocated Expr.unlocated).map (.print .nowhere) =
      (s.map (.print t.loc)).unlocated Expr.unlocated :=
    ParseStep.map_unlocated _ _ fun _ => rfl
  have hunary : ∀ (op : UnaryOp) (s : ParseStep Expr),
      (s.unlocated Expr.unlocated).map (.unary .nowhere .unknown op) =
        (s.map (.unary t.loc .unknown op)).unlocated Expr.unlocated :=
    fun op => ParseStep.map_unlocated _ _ fun _ => rfl
  rw [seed_eq, seed_eq]
  simp only [hkind, hspelling, hloc, h, closeParen_unlocated t.loc, hprint, hunary]
  cases t.kind with
  | integer =>
    dsimp only
    split <;> rfl
  | binary op =>
    dsimp only
    split <;> rfl
  | _ => rfl

/-- The induction is on the tokens that remain: the operand to the right is parsed from fewer of
them, and what is behind it is extended in turn. -/
theorem extend_unlocated (k : Int) (left : Expr)
    (h : ∀ us : List Token, us.length < ts.length → ∀ k,
      parseExpr g .nowhere k (us.map Token.unlocated) =
        (parseExpr g fin k us).unlocated Expr.unlocated) :
    extend g .nowhere k left.unlocated (ts.map Token.unlocated) =
      (extend g fin k left ts).unlocated Expr.unlocated := by
  induction hn : ts.length using Nat.strongRecOn generalizing ts left with
  | ind n ih =>
    subst hn
    cases ts with
    | nil =>
      rw [List.map_nil, extend_nil, extend_nil]
      split <;> rfl
    | cons t ts =>
      have hkind : t.unlocated.kind = t.kind := rfl
      rw [List.map_cons, extend_cons, extend_cons, hkind, h ts (Nat.lt_succ_self _)]
      split
      · have hrest := (parseExpr_rest g fin (g.threshold t.kind) ts).trans (List.tail_suffix ts)
        rcases hq : parseExpr g fin (g.threshold t.kind) ts with ⟨_ | right, rest⟩
        · rfl
        · rw [hq] at hrest
          have hlen : rest.length < (t :: ts).length := Nat.lt_succ_of_le hrest.length_le
          simp only [ParseStep.unlocated, unlocatedResult, join_unlocated]
          cases join left t right with
          | error e => rfl
          | ok e => exact ih rest.length hlen e (fun us hus => h us (Nat.lt_trans hus hlen)) rfl
      · rfl

theorem parseExpr_unlocated (k : Int) (ts : List Token) :
    parseExpr g .nowhere k (ts.map Token.unlocated) =
      (parseExpr g fin k ts).unlocated Expr.unlocated := by
  induction hn : ts.length using Nat.strongRecOn generalizing ts k with
  | ind n ih =>
    subst hn
    cases ts with
    | nil =>
      rw [List.map_nil, parseExpr_nil, parseExpr_nil]
      rfl
    | cons t ts =>
      have hseed := seed_unlocated t fun k => ih ts.length (Nat.lt_succ_self _) k ts rfl
      have hrest := seed_rest g fin t ts
      rw [List.map_cons, parseExpr_cons, parseExpr_cons, hseed]
      rcases hs : seed g fin t ts with ⟨_ | left, rest⟩
      · rfl
      · rw [hs] at hrest
        have hlen : rest.length < (t :: ts).length := Nat.lt_succ_of_le hrest.length_le
        exact extend_unlocated k left fun us hus k =>
          ih us.length (Nat.lt_trans hus hlen) k us rfl

theorem parseProgram_unlocated (ts : List Token) :
    parseProgram g .nowhere (ts.map Token.unlocated) =
      (parseProgram g fin ts).unlocated (List.map Expr.unlocated) := by
  induction hn : ts.length using Nat.strongRecOn generalizing ts with
  | ind n ih =>
    subst hn
    cases ts with
    | nil =>
      rw [List.map_nil, parseProgram_nil, parseProgram_nil]
      rfl
    | cons t ts =>
      by_cases ht : t.kind = .eof
      · have hhead : headKind (t :: ts) = .eof := ht
        have hhead' : headKind ((t :: ts).map Token.unlocated) = .eof := ht
        rw [parseProgram_eof fin hhead, parseProgram_eof .nowhere hhead']
        rfl
      · have hexpr : parseExpr g .nowhere Kind.leastPower ((t :: ts).map Token.unlocated) =
            (parseExpr g fin Kind.leastPower (t :: ts)).unlocated Expr.unlocated :=
          parseExpr_unlocated _ _
        have hrest := parseExpr_rest g fin Kind.leastPower (t :: ts)
        rcases hq : parseExpr g fin Kind.leastPower (t :: ts) with ⟨err | e, rest⟩
        · rw [hq] at hexpr
          rw [parseProgram_of_error ht hq]
          exact parseProgram_of_error ht hexpr
        · rw [hq] at hexpr hrest
          have hlen : rest.length < (t :: ts).length := Nat.lt_succ_of_le hrest.length_le
          rw [parseProgram_of_ok ht hq]
          calc parseProgram g .nowhere ((t :: ts).map Token.unlocated)
            _ = (parseProgram g .nowhere (rest.map Token.unlocated)).map (e.unlocated :: ·) :=
              parseProgram_of_ok ht hexpr
            _ = ((parseProgram g fin rest).unlocated (List.map Expr.unlocated)).map
                (e.unlocated :: ·) := by
              rw [ih rest.length hlen rest rfl]
            _ = _ := ParseStep.map_unlocated _ _ (fun _ => List.map_cons.symm) _

end Expressions

theorem endLocation_unlocated (ts : List Token) :
    endLocation (ts.map Token.unlocated) = .nowhere := by
  unfold endLocation
  rw [List.getLast?_map]
  cases ts.getLast? <;> rfl

/-- **Parsing.** -/
theorem parse_unlocated (ts : List Token) :
    parse (ts.map Token.unlocated) = unlocatedResult (List.map Expr.unlocated) (parse ts) := by
  rw [parse, parse, endLocation_unlocated, parseProgram_unlocated]
  rfl

/-! ## Checking -/

/-- An outcome of checking without locations. -/
def Checked.unlocated {τ α : Type} (f : α → α) (c : Checked τ α) : Checked τ α :=
  ⟨unlocatedResult id c.result, f c.tree, c.table⟩

theorem nameType_unlocated (t : Table Decl) (loc : Location) (x : String) :
    nameType t .nowhere x = unlocatedResult id (nameType t loc x) := by
  unfold nameType
  split <;> rfl

theorem UnarySig.apply_unlocated (sig : UnarySig) (loc : Location) (op : UnaryOp) (ty : Ty) :
    sig.apply .nowhere op ty = unlocatedResult id (sig.apply loc op ty) := by
  unfold UnarySig.apply
  split <;> rfl

theorem BinarySig.apply_unlocated (sig : BinarySig) (loc : Location) (op : BinaryOp)
    (left right : Ty) :
    sig.apply .nowhere op left right = unlocatedResult id (sig.apply loc op left right) := by
  unfold BinarySig.apply
  repeat' split
  all_goals rfl

theorem assignTo_unlocated (t : Table Decl) (loc : Location) (op : BinaryOp) (target : Expr)
    (ty : Ty) :
    assignTo t .nowhere op target.unlocated ty =
      unlocatedResult id (assignTo t loc op target ty) := by
  cases target with
  | var l _ x =>
    simp only [Expr.unlocated, assignTo]
    cases t.get? x with
    | none =>
      dsimp only
      split <;> rfl
    | some d =>
      cases d with
      | var declared =>
        dsimp only
        split
        · split <;> rfl
        · rw [BinarySig.apply_unlocated _ loc]
          cases (t.binarySig op).apply loc op declared ty <;> rfl
      | _ => rfl
  | _ => rfl

theorem Expr.retype_unlocated (ty : Ty) (e : Expr) :
    e.unlocated.retype ty = (e.retype ty).unlocated := by
  cases e <;> rfl

theorem Expr.check_unlocated (t : Table Decl) (e : Expr) :
    e.unlocated.check t = (e.check t).unlocated Expr.unlocated := by
  induction e generalizing t with
  | int | bool => rfl
  | var l ty x =>
    simp only [unlocated, check, nameType_unlocated t l]
    cases nameType t l x <;> rfl
  | unary l ty op e ih =>
    simp only [unlocated, check, ih, Checked.unlocated]
    cases (e.check t).result with
    | error err => rfl
    | ok tye =>
      simp only [unlocatedResult, id, UnarySig.apply_unlocated _ l]
      cases ((e.check t).table.unarySig op).apply l op tye <;> rfl
  | binary l ty op a b iha ihb =>
    simp only [unlocated, check, iha, ihb, Checked.unlocated]
    cases (a.check t).result with
    | error err => rfl
    | ok tya =>
      simp only [unlocatedResult]
      cases (b.check (a.check t).table).result with
      | error err => rfl
      | ok tyb =>
        simp only [id, BinarySig.apply_unlocated _ l]
        cases ((b.check (a.check t).table).table.binarySig op).apply l op tya tyb <;> rfl
  | assign l ty op target v _ ih =>
    simp only [unlocated, check, ih, Checked.unlocated]
    cases (v.check t).result with
    | error err => rfl
    | ok tyv =>
      simp only [unlocatedResult, id, assignTo_unlocated _ l]
      cases assignTo (v.check t).table l op target tyv with
      | error err => rfl
      | ok a => simp only [unlocated, retype_unlocated]
  | print l e ih =>
    simp only [unlocated, check, ih, Checked.unlocated]

/-- **Checking.** -/
theorem Program.check_unlocated (t : Table Decl) (p : Program) :
    Program.check t (p.map Expr.unlocated) =
      (Program.check t p).unlocated (List.map Expr.unlocated) := by
  induction p generalizing t with
  | nil => rfl
  | cons e p ih =>
    simp only [List.map_cons, Program.check, e.check_unlocated, ih, Checked.unlocated]
    cases (e.check t).result <;> rfl

/-! ## Evaluation -/

/-- An evaluation without locations. -/
def Run.unlocated {α : Type} (r : Run α) : Run α := ⟨unlocatedResult id r.result, r.env, r.printed⟩

theorem Run.andThen_unlocated {α β : Type} (r : Run α) {f f' : α → Env → Run β}
    (h : ∀ a env, f' a env = (f a env).unlocated) :
    r.unlocated.andThen f' = (r.andThen f).unlocated := by
  obtain ⟨result, env, printed⟩ := r
  cases result with
  | error e => rfl
  | ok a => simp only [unlocated, andThen, unlocatedResult, id, h]

theorem Run.located_unlocated {α : Type} (env : Env) (loc : Location) (r : Except EvalError α) :
    Run.located env .nowhere r = (Run.located env loc r).unlocated := by
  cases r <;> rfl

theorem Expr.eval_unlocated (d : Dialect) (env : Env) (e : Expr) :
    e.unlocated.eval d env = (e.eval d env).unlocated := by
  induction e generalizing env with
  | int | bool | var => rfl
  | unary l ty op e ih =>
    simp only [unlocated, eval, ih]
    exact Run.andThen_unlocated _ fun _ _ => rfl
  | binary l ty op a b iha ihb =>
    simp only [unlocated, eval, iha, ihb]
    refine Run.andThen_unlocated _ fun x env => Run.andThen_unlocated _ fun y env => ?_
    exact Run.located_unlocated env l _
  | assign l ty op target v _ ih =>
    cases target with
    | var l' ty' x =>
      simp only [unlocated, eval, ih, Run.located_unlocated _ l]
      exact Run.andThen_unlocated _ fun _ _ => Run.andThen_unlocated _ fun _ _ => rfl
    | _ => rfl
  | print l e ih =>
    simp only [unlocated, eval, ih]
    exact Run.andThen_unlocated _ fun _ _ => rfl

theorem Program.evalFrom_unlocated (d : Dialect) (last : Value) (env : Env) (p : Program) :
    Program.evalFrom d last env (p.map Expr.unlocated) =
      (Program.evalFrom d last env p).unlocated := by
  induction p generalizing last env with
  | nil => rfl
  | cons e p ih =>
    simp only [List.map_cons, Program.evalFrom, e.eval_unlocated, ih]
    exact Run.andThen_unlocated _ fun _ _ => rfl

/-! ## Sessions -/

/-- A failure that is reported nowhere. -/
def Failure.unlocated : Failure → Failure
  | scan e => scan e.unlocated
  | parse e => parse e.unlocated
  | check e => check e.unlocated
  | eval e => eval e.unlocated

/-- Two replies that differ in locations only, what they have traced apart. -/
structure Reply.Alike (r r' : Reply Value) : Prop where
  result : r.result.mapError Failure.unlocated = r'.result.mapError Failure.unlocated
  session : r.session = r'.session
  printed : r.printed = r'.printed

theorem Reply.Alike.ok_iff {r r' : Reply Value} (h : r.Alike r') (v : Value) :
    r.result = .ok v ↔ r'.result = .ok v := by
  rw [← mapError_eq_ok_iff, h.result, mapError_eq_ok_iff]

/-- **Evaluating a program.** -/
theorem Session.eval_unlocated (s : Session) (p : Program) :
    (s.eval (p.map Expr.unlocated)).Alike (s.eval p) := by
  simp only [Session.eval, Program.check_unlocated, Checked.unlocated, Program.eval,
    Program.evalFrom_unlocated]
  cases (Program.check s.table p).result with
  | error e => exact ⟨rfl, rfl, rfl⟩
  | ok u =>
    simp only [unlocatedResult, id, Run.unlocated]
    cases (Program.evalFrom s.settings.dialect .unit s.env
      (Program.check s.table p).tree).result with
    | error e => exact ⟨rfl, rfl, rfl⟩
    | ok v => exact ⟨rfl, rfl, rfl⟩

theorem Session.eval_alike (s : Session) {p q : Program}
    (h : p.map Expr.unlocated = q.map Expr.unlocated) : (s.eval p).Alike (s.eval q) := by
  have hp := s.eval_unlocated p
  have hq := s.eval_unlocated q
  rw [h] at hp
  exact ⟨hp.result.symm.trans hq.result, hp.session.symm.trans hq.session,
    hp.printed.symm.trans hq.printed⟩

end Reckon
