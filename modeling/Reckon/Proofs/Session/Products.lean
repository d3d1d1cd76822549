import Reckon.Proofs.Grammar.Regrouping
import Reckon.Proofs.Interchange
import Reckon.Proofs.Session.Compound

/-!
# Which way products group

Multiplication groups to the right. Whether it does or not makes no difference to a chain of
multiplications, but it does to a division or a remainder behind one: `5 * 3 / 2` is `5 * (3 / 2)`.

* `Phrase.interchangeable_regroup`: where multiplications come last in their chains, the two
  readings of a phrase are interchangeable.
* `Session.eval_interchangeable`: a session does the same with interchangeable programs.
* `Session.product_grouping_unobservable`: what follows for programs that are parsed.
* `Session.product_grouping_observable`: a division behind a multiplication shows the difference.
* `Session.product_grouping_needs_words`: so does a multiplication that is declared anew.
-/

namespace Reckon

open Token (Kind)

/-! ## Phrases -/

theorem BinaryOp.interchangeable_node {a a' b b' : Expr} (ha : a.Interchangeable a')
    (hb : b.Interchangeable b') (op : BinaryOp) (l : Location) :
    (op.node l a b).Interchangeable (op.node l a' b') := by
  unfold BinaryOp.node
  split
  · exact ha.assign hb l .unknown op
  · exact ha.binary hb l .unknown op

namespace Phrase

/-- A factor in front of a chain of multiplications can be taken with the first operand of the chain
or with the whole chain. -/
theorem interchangeable_graft {t : Token} (ht : t.kind = .binary (.arith .mul)) (l : Phrase)
    {r : Phrase} (h : ∀ o ∈ r.leftOps, o = .arith .mul) :
    (graft t _ ht l r).expr.Interchangeable
      (BinaryOp.node (.arith .mul) t.loc l.expr r.expr) := by
  induction r with
  | infixed u op a b hu iha _ =>
    obtain rfl : op = .arith .mul := h _ List.mem_cons_self
    have hfirst := iha fun o ho => h o (List.mem_cons_of_mem _ ho)
    have hchain := BinaryOp.interchangeable_node hfirst (.refl b.expr) (.arith .mul) u.loc
    exact hchain.trans (.mul_assoc t.loc u.loc .unknown .unknown l.expr a.expr b.expr)
  | _ => exact .refl _

/-- **The two readings.** -/
theorem interchangeable_regroup {p : Phrase} (hp : p.WellPrecedenced .standard)
    (hlast : p.MultipliesLast) : p.regroup.expr.Interchangeable p.expr := by
  induction p with
  | atom t e ht => exact .refl e
  | paren l p r hl hr ih => exact ih hp hlast
  | prefixed t op p ht ih =>
    have hoperand := ih hp.1 hlast
    cases op with
    | print => exact hoperand.print t.loc
    | unary op => exact hoperand.unary t.loc .unknown op
  | infixed t op l r ht ihl ihr =>
    obtain ⟨hl, hr, -, hrl⟩ := hp
    obtain ⟨hlastl, hlastr, hdiv⟩ := hlast
    have hnode := BinaryOp.interchangeable_node (ihl hl hlastl) (ihr hr hlastr) op t.loc
    simp only [regroup]
    split
    · rename_i hop
      subst hop
      have hchain := hr.eq_mul_of_mem_leftOps_regroup hlastr
        (eq_mul_of_mem_leftOps hrl (hdiv rfl))
      exact (interchangeable_graft ht l.regroup hchain).trans hnode
    · exact hnode

end Phrase

/-! ## Sessions -/

namespace Session

/-- **Interchangeable programs.** A session that checks and evaluates them fails on both, or does
the same with both. -/
theorem eval_interchangeable {s : Session} (hmul : s.table.MultipliesWords) {p p' : Program}
    (h : List.Forall₂ Expr.Interchangeable p p') :
    (s.eval p).isOk = (s.eval p').isOk ∧
      ((s.eval p).isOk = true → (s.eval p).result = (s.eval p').result ∧
        (s.eval p).output = (s.eval p').output ∧ (s.eval p).session = (s.eval p').session) := by
  cases hc : (Program.check s.table p).result with
  | ok u =>
    obtain ⟨q', hc'⟩ := Program.passes_interchangeable (h.imp fun _ _ he => he.passes) hmul
      (checksAll_of_ok hc)
    have heval : Program.eval s.settings.dialect s.env (Program.check s.table p).tree =
        Program.eval s.settings.dialect s.env q' := by
      have htree' := Program.eval_tree s.settings.dialect s.env s.table p'
      rw [hc'.check_eq] at htree'
      rw [Program.eval_tree, htree', Program.eval_interchangeable h]
    obtain ⟨hresult, hsession, hprinted⟩ :=
      eval_congr (checksAll_of_ok hc).check_eq hc'.check_eq heval
    refine ⟨congrArg Except.isOk hresult, fun _ => ⟨hresult, ?_, hsession⟩⟩
    rw [Reply.output, hprinted, Reply.output]
  | error err =>
    have hp : s.eval p = ⟨.error (.check err), s, [], []⟩ := eval_of_check_error hc
    cases hc' : (Program.check s.table p').result with
    | error err' =>
      have hp' : s.eval p' = ⟨.error (.check err'), s, [], []⟩ := eval_of_check_error hc'
      rw [hp, hp']
      exact ⟨rfl, fun hok => by cases hok⟩
    | ok u =>
      -- what the second program passes, the first one passes
      have hback : List.Forall₂ Expr.PassesLike p' p := (h.imp fun _ _ he => he.passes').flip
      obtain ⟨q, hq⟩ := Program.passes_interchangeable hback hmul (checksAll_of_ok hc')
      rw [hq.check_eq] at hc
      cases hc

/-- **Grouping of products.** Every list of tokens that is parsed is parsed also if multiplication
groups to the left. If no division or remainder stands behind a multiplication in one chain, nothing
tells the two programs apart: every session evaluates them alike, and a session in which
multiplication takes words to words fails to check and evaluate both, or gives the same value,
output and session for both. -/
theorem product_grouping_unobservable {ts : List Token} {p : Program}
    (hp : Reckon.parse ts = .ok p) :
    ∃ p', parseWith .productsLeft ts = .ok p' ∧
      (MultipliesLast ts →
        (∀ s : Session, s.interpret p' = s.interpret p) ∧
        ∀ s : Session, s.table.binarySig (.arith .mul) = ⟨.int, .int, .int⟩ →
          (s.eval p').isOk = (s.eval p).isOk ∧
          ((s.eval p').isOk = true → (s.eval p').result = (s.eval p).result ∧
            (s.eval p').output = (s.eval p).output ∧
            (s.eval p').session = (s.eval p).session)) := by
  obtain ⟨ps, rest, hps, hts, -, hrest⟩ := parse_eq_ok_iff.1 hp
  refine ⟨_, hts ▸ hps.parseWith_productsLeft hrest, ?_⟩
  rintro ⟨qs, rest', hqs, hts', hrest', hlast⟩
  -- the chains are those of the phrases that are parsed, since there is one way to parse them
  have hp' : Reckon.parse ts = .ok (qs.map Phrase.expr) :=
    parse_eq_ok_iff.2 ⟨qs, rest', hqs, hts', rfl, hrest'⟩
  have hleft : parseWith .productsLeft ts = .ok ((qs.map Phrase.regroup).map Phrase.expr) :=
    hts' ▸ hqs.parseWith_productsLeft hrest'
  rw [hts, hps.parseWith_productsLeft hrest] at hleft
  obtain rfl := Except.ok.inj (hp.symm.trans hp')
  rw [Except.ok.inj hleft]
  have halike : List.Forall₂ Expr.Interchangeable ((qs.map Phrase.regroup).map Phrase.expr)
      (qs.map Phrase.expr) := by
    rw [List.map_map, List.forall₂_map_left_iff, List.forall₂_map_right_iff, List.forall₂_same]
    exact fun q hq => Phrase.interchangeable_regroup (hqs.ordered q hq) (hlast q hq)
  refine ⟨fun s => ?_, fun s hmul => eval_interchangeable hmul halike⟩
  simp only [interpret, Program.eval_interchangeable halike]

private def chainTokens : List Token :=
  [⟨.integer, "7", .nowhere⟩, ⟨.binary (.arith .div), "/", .nowhere⟩, ⟨.integer, "2", .nowhere⟩,
    ⟨.binary (.arith .mul), "*", .nowhere⟩, ⟨.leftParen, "(", .nowhere⟩,
    ⟨.identifier, "x", .nowhere⟩, ⟨.binary .assign, "=", .nowhere⟩, ⟨.integer, "3", .nowhere⟩,
    ⟨.rightParen, ")", .nowhere⟩, ⟨.binary (.arith .mul), "*", .nowhere⟩,
    ⟨.identifier, "x", .nowhere⟩, .eofAt .nowhere]

private def chain : Expr :=
  .binary .nowhere .unknown (.arith .mul)
    (.binary .nowhere .unknown (.arith .div) (.int .nowhere 7) (.int .nowhere 2))
    (.binary .nowhere .unknown (.arith .mul)
      (.assign .nowhere .unknown .assign (.var .nowhere .unknown "x") (.int .nowhere 3))
      (.var .nowhere .unknown "x"))

private theorem parse_chain :
    Reckon.parse chainTokens = .ok [chain] ∧ MultipliesLast chainTokens := by
  have hphrase : ∃ p : Phrase, p.WellPrecedenced .standard ∧ p.MultipliesLast ∧
      p.yield ++ [.eofAt .nowhere] = chainTokens ∧ p.expr = chain := by
    refine ⟨.infixed ⟨.binary (.arith .mul), "*", .nowhere⟩ (.arith .mul)
      (.infixed ⟨.binary (.arith .div), "/", .nowhere⟩ (.arith .div)
        (.atom ⟨.integer, "7", .nowhere⟩ (.int .nowhere 7) rfl)
        (.atom ⟨.integer, "2", .nowhere⟩ (.int .nowhere 2) rfl) rfl)
      (.infixed ⟨.binary (.arith .mul), "*", .nowhere⟩ (.arith .mul)
        (.paren ⟨.leftParen, "(", .nowhere⟩
          (.infixed ⟨.binary .assign, "=", .nowhere⟩ .assign
            (.atom ⟨.identifier, "x", .nowhere⟩ (.var .nowhere .unknown "x") rfl)
            (.atom ⟨.integer, "3", .nowhere⟩ (.int .nowhere 3) rfl) rfl)
          ⟨.rightParen, ")", .nowhere⟩ rfl rfl)
        (.atom ⟨.identifier, "x", .nowhere⟩ (.var .nowhere .unknown "x") rfl) rfl) rfl,
      ⟨⟨trivial, trivial, by decide, by decide⟩,
        ⟨⟨trivial, trivial, by decide, by decide⟩, trivial, by decide, by decide⟩, by decide,
        by decide⟩,
      ⟨⟨trivial, trivial, by decide⟩, ⟨⟨trivial, trivial, by decide⟩, trivial, by decide⟩,
        by decide⟩, rfl, rfl⟩
  obtain ⟨p, hp, hlast, hyield, hexpr⟩ := hphrase
  have htokens : chainTokens = [p].flatMap Phrase.yield ++ [.eofAt .nowhere] := by
    rw [List.flatMap_singleton, hyield]
  constructor
  · exact parse_eq_ok_iff.2 ⟨[p], _, .single hp, htokens, by rw [List.map_singleton, hexpr], rfl⟩
  · refine ⟨[p], _, .single hp, htokens, rfl, fun q hq => ?_⟩
    rw [List.mem_singleton.1 hq]
    exact hlast

private theorem eval_chain : ((start .default).eval [chain]).result = .ok (.int 27) := by
  have hx : Decl.standard.get? "x" = none := by decide +kernel
  have hmul : (Decl.standard.save "x" (.var .int)).binarySig (.arith .mul) =
      ⟨.int, .int, .int⟩ := by
    decide +kernel
  have hdiv : Decl.standard.binarySig (.arith .div) = ⟨.int, .int, .int⟩ := by decide +kernel
  have hvalue : Env.value (Env.standard.save "x" (.int 3)) "x" = .int 3 := by decide +kernel
  have hquotient : ArithOp.div.apply (.int 7) (.int 2) = .ok (.int 3) := rfl
  have hnine : ArithOp.mul.apply (.int 3) (.int 3) = .ok (.int 9) := rfl
  have hall : ArithOp.mul.apply (.int 3) (.int 9) = .ok (.int 27) := rfl
  simp [chain, eval, start, Program.check, Expr.check, assignTo, nameType, hx, Table.get?_save,
    hmul, hdiv, BinarySig.apply, Program.eval, Program.evalFrom, Expr.eval, Expr.retype,
    Run.andThen, Run.yield, Run.located, Dialect.update, BinaryOp.apply, hvalue, hquotient, hnine,
    hall]

/-- In `7 / 2 * (x = 3) * x` the multiplications come last, so it is `27` either way. -/
theorem product_grouping_of_chain :
    ∃ p', parseWith .productsLeft chainTokens = .ok p' ∧
      ((start .default).eval p').result = .ok (.int 27) := by
  obtain ⟨hparse, hlast⟩ := parse_chain
  obtain ⟨p', hp', halike⟩ := product_grouping_unobservable hparse
  have hmul : (start .default).table.binarySig (.arith .mul) = ⟨.int, .int, .int⟩ := by
    decide +kernel
  obtain ⟨hok, hsame⟩ := (halike hlast).2 (start .default) hmul
  have hresult := hsame (hok.trans (Reply.isOk_iff.2 ⟨_, eval_chain⟩))
  exact ⟨p', hp', hresult.1.trans eval_chain⟩

/-- In `5 * 3 / 2` a division stands behind a multiplication. It is `5`, and would be `7` if
multiplication grouped to the left. -/
theorem product_grouping_observable :
    ∃ p p', Reckon.parse [⟨.integer, "5", .nowhere⟩, ⟨.binary (.arith .mul), "*", .nowhere⟩,
        ⟨.integer, "3", .nowhere⟩, ⟨.binary (.arith .div), "/", .nowhere⟩,
        ⟨.integer, "2", .nowhere⟩, .eofAt .nowhere] = .ok p ∧
      parseWith .productsLeft [⟨.integer, "5", .nowhere⟩, ⟨.binary (.arith .mul), "*", .nowhere⟩,
        ⟨.integer, "3", .nowhere⟩, ⟨.binary (.arith .div), "/", .nowhere⟩,
        ⟨.integer, "2", .nowhere⟩, .eofAt .nowhere] = .ok p' ∧
      ((start .default).eval p).result = .ok (.int 5) ∧
      ((start .default).eval p').result = .ok (.int 7) := by
  have hps : Sentence .standard [
      .infixed ⟨.binary (.arith .mul), "*", .nowhere⟩ (.arith .mul)
        (.atom ⟨.integer, "5", .nowhere⟩ (.int .nowhere 5) rfl)
        (.infixed ⟨.binary (.arith .div), "/", .nowhere⟩ (.arith .div)
          (.atom ⟨.integer, "3", .nowhere⟩ (.int .nowhere 3) rfl)
          (.atom ⟨.integer, "2", .nowhere⟩ (.int .nowhere 2) rfl) rfl) rfl] :=
    .single ⟨trivial, ⟨trivial, trivial, by decide, by decide⟩, by decide, by decide⟩
  have hend : headKind [Token.eofAt .nowhere] = .eof := rfl
  refine ⟨_, _, parse_eq_ok_iff.2 ⟨_, [.eofAt .nowhere], hps, rfl, rfl, hend⟩,
    hps.parseWith_productsLeft hend, ?_⟩
  have hmul : Decl.standard.binarySig (.arith .mul) = ⟨.int, .int, .int⟩ := by decide +kernel
  have hdiv : Decl.standard.binarySig (.arith .div) = ⟨.int, .int, .int⟩ := by decide +kernel
  have hone : ArithOp.div.apply (.int 3) (.int 2) = .ok (.int 1) := rfl
  have hfive : ArithOp.mul.apply (.int 5) (.int 1) = .ok (.int 5) := rfl
  have hfifteen : ArithOp.mul.apply (.int 5) (.int 3) = .ok (.int 15) := rfl
  have hseven : ArithOp.div.apply (.int 15) (.int 2) = .ok (.int 7) := rfl
  simp [Phrase.regroup, Phrase.graft, Phrase.expr, BinaryOp.node, BinaryOp.isAssign, eval, start,
    Program.check, Expr.check, hmul, hdiv, BinarySig.apply, Program.eval, Program.evalFrom,
    Expr.eval, Run.andThen, Run.yield, Run.located, BinaryOp.apply, hone, hfive, hfifteen, hseven]

private def truthTokens : List Token :=
  [⟨.integer, "1", .nowhere⟩, ⟨.binary (.arith .mul), "*", .nowhere⟩, ⟨.integer, "2", .nowhere⟩,
    ⟨.binary (.arith .mul), "*", .nowhere⟩, ⟨.bool true, "true", .nowhere⟩, .eofAt .nowhere]

/-- **The signature of multiplication matters.** In `1 * 2 * true` the multiplications come last.
Where multiplication is declared to take a word and a truth value to a truth value, `1 * (2 * true)`
passes a check and `(1 * 2) * true` does not. -/
theorem product_grouping_needs_words :
    ∃ (s : Session) (p p' : Program), s.table.get? "mul" = some (.binary ⟨.int, .bool, .bool⟩) ∧
      Reckon.parse truthTokens = .ok p ∧ parseWith .productsLeft truthTokens = .ok p' ∧
      MultipliesLast truthTokens ∧ (s.eval p).isOk = true ∧ (s.eval p').isOk = false := by
  have hps : Sentence .standard [
      .infixed ⟨.binary (.arith .mul), "*", .nowhere⟩ (.arith .mul)
        (.atom ⟨.integer, "1", .nowhere⟩ (.int .nowhere 1) rfl)
        (.infixed ⟨.binary (.arith .mul), "*", .nowhere⟩ (.arith .mul)
          (.atom ⟨.integer, "2", .nowhere⟩ (.int .nowhere 2) rfl)
          (.atom ⟨.bool true, "true", .nowhere⟩ (.bool .nowhere true) rfl) rfl) rfl] :=
    .single ⟨trivial, ⟨trivial, trivial, by decide, by decide⟩, by decide, by decide⟩
  have hend : headKind [Token.eofAt .nowhere] = .eof := rfl
  have hlast : MultipliesLast truthTokens := by
    refine ⟨_, [.eofAt .nowhere], hps, rfl, hend, fun q hq => ?_⟩
    rw [List.mem_singleton.1 hq]
    exact ⟨trivial, ⟨trivial, trivial, by decide⟩, by decide⟩
  obtain ⟨t, hmul⟩ : ∃ t : Table Decl, t.get? "mul" = some (.binary ⟨.int, .bool, .bool⟩) :=
    ⟨Decl.standard.save "mul" (.binary ⟨.int, .bool, .bool⟩), by rw [Table.get?_save, if_pos rfl]⟩
  refine ⟨{ start .default with table := t }, _, _, hmul,
    parse_eq_ok_iff.2 ⟨_, [.eofAt .nowhere], hps, rfl, rfl, hend⟩, hps.parseWith_productsLeft hend,
    hlast, ?_⟩
  have hsig : t.binarySig (.arith .mul) = ⟨.int, .bool, .bool⟩ := by
    rw [Table.binarySig, show (BinaryOp.arith .mul).name = "mul" from rfl, hmul]
  have hinner : ArithOp.mul.apply (.int 2) (.bool true) = .ok .unit := rfl
  have houter : ArithOp.mul.apply (.int 1) .unit = .ok .unit := rfl
  simp [Phrase.regroup, Phrase.graft, Phrase.expr, BinaryOp.node, BinaryOp.isAssign, eval, start,
    Program.check, Expr.check, hsig, BinarySig.apply, Program.eval, Program.evalFrom, Expr.eval,
    Run.andThen, Run.yield, Run.located, BinaryOp.apply, hinner, houter, Reply.isOk, Except.isOk,
    Except.toBool]

end Session

end Reckon
