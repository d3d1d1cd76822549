import Reckon.Proofs.Grammar.Phrase

/-!
# Reading phrases

How parsing by binding power finds a phrase, as a relation without failures: `Reads g k left ts p
rest` says that at the threshold `k` the tokens `ts` hold the phrase `p` up to `rest`, where `left`
is the part of it that is already read.

* `Reads.unique`: at most one phrase is read.
* `Reads.parse_eq`, `exists_reads_of_parse`: parsing succeeds where a phrase is read, and yields its
  expression.
* `Fits.reads`, `Reads.fits`: the phrases that are read are the well-precedenced ones whose spines
  suit the threshold and what follows.
-/

namespace Reckon

open Token (Kind)

/-! ## The parser, form by form -/

section Steps

variable {g : Grouping} {fin : Location}

theorem seed_atom {t : Token} {e : Expr} (h : t.atom? = some e) (ts : List Token) :
    seed g fin t ts = ⟨.ok e, ts⟩ := by
  rw [seed_eq]
  rcases Token.atom?_eq_some h with ⟨hk, n, hn, rfl⟩ | ⟨b, hk, rfl⟩ | ⟨hk, rfl⟩
  · simp only [hk, hn]
  · simp only [hk]
  · simp only [hk]

theorem seed_paren {t : Token} (h : t.kind = .leftParen) (ts : List Token) :
    seed g fin t ts = closeParen t.loc (parseExpr g fin Kind.leastPower ts) := by
  rw [seed_eq, h]

theorem seed_prefixed {t : Token} {op : PrefixOp} (h : t.kind.prefixOp? = some op)
    (ts : List Token) :
    seed g fin t ts = (parseExpr g fin op.threshold ts).map (op.node t.loc ·) := by
  rw [seed_eq]
  by_cases hprint : t.kind = .print
  · rw [hprint] at h
    cases h
    simp only [hprint]
    rfl
  · rw [Kind.prefixOp?_eq hprint] at h
    obtain ⟨op, hop, rfl⟩ := Option.map_eq_some_iff.1 h
    generalize hk : t.kind = kind at hop
    cases kind <;> simp only [Kind.unaryOp?, reduceCtorEq] at hop
    all_goals simp only [Kind.unaryOp?, hop]
    all_goals rfl

theorem closeParen_ok {loc : Location} {s : ParseStep Expr} {e : Expr} {rest : List Token}
    (h : closeParen loc s = ⟨.ok e, rest⟩) :
    ∃ r : Token, r.kind = .rightParen ∧ s = ⟨.ok e, r :: rest⟩ := by
  obtain ⟨result, toks⟩ := s
  cases result with
  | error err => cases toks <;> cases h
  | ok e' =>
    cases toks with
    | nil => cases h
    | cons r toks =>
      simp only [closeParen] at h
      split at h
      · rename_i hr
        cases h
        exact ⟨r, hr, rfl⟩
      · cases h

theorem ParseStep.map_ok {α β : Type} {f : α → β} {s : ParseStep α} {b : β} {rest : List Token}
    (h : s.map f = ⟨.ok b, rest⟩) : ∃ a, s = ⟨.ok a, rest⟩ ∧ b = f a := by
  obtain ⟨result, toks⟩ := s
  cases result with
  | error err => cases h
  | ok a => cases h; exact ⟨a, rfl, rfl⟩

/-- What a seed can be. -/
theorem seed_ok {t : Token} {ts rest : List Token} {e : Expr}
    (h : seed g fin t ts = ⟨.ok e, rest⟩) :
    (t.atom? = some e ∧ rest = ts) ∨
    (t.kind = .leftParen ∧ ∃ r : Token, r.kind = .rightParen ∧
      parseExpr g fin Kind.leastPower ts = ⟨.ok e, r :: rest⟩) ∨
    ∃ op a, t.kind.prefixOp? = some op ∧ parseExpr g fin op.threshold ts = ⟨.ok a, rest⟩ ∧
      e = op.node t.loc a := by
  by_cases hp : t.kind = .leftParen
  · rw [seed_paren hp] at h
    exact .inr (.inl ⟨hp, closeParen_ok h⟩)
  cases hop : t.kind.prefixOp? with
  | some op =>
    rw [seed_prefixed hop] at h
    obtain ⟨a, ha, rfl⟩ := ParseStep.map_ok h
    exact .inr (.inr ⟨op, a, rfl, ha, rfl⟩)
  | none =>
    cases ha : t.atom? with
    | some a =>
      rw [seed_atom ha] at h
      cases h
      exact .inl ⟨rfl, rfl⟩
    | none =>
      -- every other kind is refused
      rw [seed_eq] at h
      unfold Token.atom? at ha
      cases hk : t.kind with
      | integer =>
        rw [hk] at ha h
        simp only [Option.map_eq_none_iff] at ha
        simp only [ha] at h
        cases h
      | binary op =>
        rw [hk] at hop h
        rw [Kind.prefixOp?_eq (by simp), Option.map_eq_none_iff] at hop
        simp only [hop] at h
        cases h
      | leftParen => exact absurd hk hp
      | bool b => rw [hk] at ha; cases ha
      | identifier => rw [hk] at ha; cases ha
      | print => rw [hk] at hop; cases hop
      | bitNot => rw [hk] at hop; cases hop
      | logicNot => rw [hk] at hop; cases hop
      | eof => rw [hk] at h; cases h
      | rightParen => rw [hk] at h; cases h
      | other code => rw [hk] at h; cases h

/-- What an extension can be: nothing, or an operator and its right operand, and what extends these
in turn. -/
theorem extend_ok {k : Int} {l e : Expr} {t : Token} {ts rest : List Token}
    (h : extend g fin k l (t :: ts) = ⟨.ok e, rest⟩) :
    (t.kind.power ≤ k ∧ e = l ∧ rest = t :: ts) ∨
    ∃ op a us, t.kind = .binary op ∧ k < op.power ∧ us.length ≤ ts.length ∧
      parseExpr g fin (g.threshold (.binary op)) ts = ⟨.ok a, us⟩ ∧
      extend g fin k (op.node t.loc l a) us = ⟨.ok e, rest⟩ := by
  rw [extend_cons] at h
  split at h
  · rename_i hk
    rcases hq : parseExpr g fin (g.threshold t.kind) ts with ⟨_ | a, us⟩
    · rw [hq] at h; cases h
    · have hus := ((parseExpr_rest g fin (g.threshold t.kind) ts).trans
        (List.tail_suffix ts)).length_le
      rw [hq] at h hus
      cases hj : join l t a with
      | error err => simp only [hj] at h; cases h
      | ok b =>
        simp only [hj] at h
        obtain ⟨op, hop, rfl⟩ := join_ok hj
        rw [hop] at hq hk
        exact .inr ⟨op, a, us, hop, hk, hus, hq, h⟩
  · rename_i hk
    cases h
    exact .inl ⟨Int.not_lt.1 hk, rfl, rfl⟩

end Steps

/-! ## The relation -/

/-- At the threshold `k` the tokens hold the phrase `p`, of which `left` is read already, up to
`rest`. -/
inductive Reads (g : Grouping) : Int → Option Phrase → List Token → Phrase → List Token → Prop
  | atom {k : Int} {t : Token} {e : Expr} {ts rest : List Token} {p : Phrase}
      (ht : t.atom? = some e) (more : Reads g k (some (.atom t e ht)) ts p rest) :
      Reads g k none (t :: ts) p rest
  | paren {k : Int} {l r : Token} {q p : Phrase} {ts us rest : List Token}
      (hl : l.kind = .leftParen) (hr : r.kind = .rightParen)
      (inner : Reads g Kind.leastPower none ts q (r :: us))
      (more : Reads g k (some (.paren l q r hl hr)) us p rest) :
      Reads g k none (l :: ts) p rest
  | prefixed {k : Int} {t : Token} {op : PrefixOp} {q p : Phrase} {ts us rest : List Token}
      (ht : t.kind.prefixOp? = some op) (operand : Reads g op.threshold none ts q us)
      (more : Reads g k (some (.prefixed t op q ht)) us p rest) :
      Reads g k none (t :: ts) p rest
  | infixed {k : Int} {t : Token} {op : BinaryOp} {l r p : Phrase} {ts us rest : List Token}
      (ht : t.kind = .binary op) (tighter : k < op.power)
      (right : Reads g (g.threshold (.binary op)) none ts r us)
      (more : Reads g k (some (.infixed t op l r ht)) us p rest) :
      Reads g k (some l) (t :: ts) p rest
  | stop {k : Int} {p : Phrase} {ts : List Token} (h : (headKind ts).power ≤ k) :
      Reads g k (some p) ts p ts

/-- Goes on parsing where `left` is read already. -/
def resume (g : Grouping) (fin : Location) (k : Int) : Option Phrase → List Token → ParseStep Expr
  | none, ts => parseExpr g fin k ts
  | some l, ts => extend g fin k l.expr ts

section Reads

variable {g : Grouping}

/-- **One reading.** The tokens, the threshold and what is read already determine the phrase and
where it ends. -/
theorem Reads.unique {k : Int} {left : Option Phrase} {ts rest rest' : List Token} {p p' : Phrase}
    (h : Reads g k left ts p rest) (h' : Reads g k left ts p' rest') : p = p' ∧ rest = rest' := by
  induction h generalizing p' rest' with
  | atom ht _ ih =>
    cases h' with
    | atom ht' more' =>
      obtain rfl := Option.some.inj (ht.symm.trans ht')
      exact ih more'
    | paren hl' => simp [Token.atom?, hl'] at ht
    | prefixed ht' => rw [Token.prefixOp?_of_atom? ht] at ht'; cases ht'
  | paren hl hr _ _ ihq ih =>
    cases h' with
    | atom ht' => simp [Token.atom?, hl] at ht'
    | paren hl' hr' inner' more' =>
      obtain ⟨rfl, hrest⟩ := ihq inner'
      cases hrest
      exact ih more'
    | prefixed ht' => simp [hl, Kind.prefixOp?] at ht'
  | prefixed ht _ _ ihq ih =>
    cases h' with
    | atom ht' => rw [Token.prefixOp?_of_atom? ht'] at ht; cases ht
    | paren hl' => simp [hl', Kind.prefixOp?] at ht
    | prefixed ht' operand' more' =>
      obtain rfl := Option.some.inj (ht.symm.trans ht')
      obtain ⟨rfl, rfl⟩ := ihq operand'
      exact ih more'
  | infixed ht hk _ _ ihr ih =>
    cases h' with
    | infixed ht' hk' right' more' =>
      obtain rfl := Kind.binary.inj (ht.symm.trans ht')
      obtain ⟨rfl, rfl⟩ := ihr right'
      exact ih more'
    | stop hs =>
      simp only [headKind, ht, Kind.power] at hs
      omega
  | stop hs =>
    cases h' with
    | infixed ht' hk' =>
      simp only [headKind, ht', Kind.power] at hs
      omega
    | stop => exact ⟨rfl, rfl⟩

/-- Where a phrase is read, parsing succeeds. -/
theorem Reads.parse_eq {k : Int} {left : Option Phrase} {ts rest : List Token} {p : Phrase}
    (h : Reads g k left ts p rest) (fin : Location) :
    resume g fin k left ts = ⟨.ok p.expr, rest⟩ := by
  induction h with
  | atom ht _ ih =>
    simp only [resume, parseExpr_cons, seed_atom ht]
    exact ih
  | paren hl hr _ _ ihq ih =>
    simp only [resume] at ihq ⊢
    simp only [parseExpr_cons, seed_paren hl, ihq, closeParen, hr, if_true]
    exact ih
  | prefixed ht _ _ ihq ih =>
    simp only [resume] at ihq ⊢
    simp only [parseExpr_cons, seed_prefixed ht, ihq]
    exact ih
  | infixed ht hk _ _ ihr ih =>
    simp only [resume] at ihr ⊢
    rw [extend_cons, ht]
    simp only [Kind.power, hk, if_true, ihr, join_binary ht]
    exact ih
  | @stop k p ts hs =>
    cases ts with
    | nil =>
      simp only [headKind, Kind.power] at hs
      rw [resume, extend_nil, if_neg (by omega)]
    | cons t ts =>
      simp only [headKind] at hs
      rw [resume, extend_cons, if_neg (by omega)]

/-- Where parsing succeeds, a phrase is read. The induction is on the number of tokens: both an
expression and its extension leave fewer. -/
theorem exists_reads_of_parse {fin : Location} {k : Int} {left : Option Phrase}
    {ts rest : List Token} {e : Expr} (h : resume g fin k left ts = ⟨.ok e, rest⟩) :
    ∃ p, Reads g k left ts p rest ∧ p.expr = e := by
  induction hn : ts.length using Nat.strongRecOn generalizing k left ts rest e with
  | ind n ih =>
    cases left with
    | none =>
      cases ts with
      | nil => rw [resume, parseExpr_nil] at h; cases h
      | cons t ts =>
        rw [List.length_cons] at hn
        rw [resume, parseExpr_cons] at h
        rcases hs : seed g fin t ts with ⟨_ | a, us⟩
        · rw [hs] at h; cases h
        · have hus : us.length ≤ ts.length := by
            have := (seed_rest g fin t ts).length_le
            rwa [hs] at this
          rw [hs] at h
          rcases seed_ok hs with ⟨ha, rfl⟩ | ⟨hl, r, hr, hq⟩ | ⟨op, b, hop, hq, rfl⟩
          · replace h : resume g fin k (some (.atom t a ha)) us = ⟨.ok e, rest⟩ := h
            obtain ⟨p, hp, he⟩ := ih us.length (by omega) h rfl
            exact ⟨p, .atom ha hp, he⟩
          · replace hq : resume g fin Kind.leastPower none ts = ⟨.ok a, r :: us⟩ := hq
            obtain ⟨q, inner, rfl⟩ := ih ts.length (by omega) hq rfl
            replace h : resume g fin k (some (.paren t q r hl hr)) us = ⟨.ok e, rest⟩ := h
            obtain ⟨p, hp, he⟩ := ih us.length (by omega) h rfl
            exact ⟨p, .paren hl hr inner hp, he⟩
          · replace hq : resume g fin op.threshold none ts = ⟨.ok b, us⟩ := hq
            obtain ⟨q, operand, rfl⟩ := ih ts.length (by omega) hq rfl
            replace h : resume g fin k (some (.prefixed t op q hop)) us = ⟨.ok e, rest⟩ := h
            obtain ⟨p, hp, he⟩ := ih us.length (by omega) h rfl
            exact ⟨p, .prefixed hop operand hp, he⟩
    | some l =>
      cases ts with
      | nil =>
        rw [resume, extend_nil] at h
        split at h
        · cases h
        · rename_i hk
          cases h
          exact ⟨l, .stop (Int.not_lt.1 hk), rfl⟩
      | cons t ts =>
        rw [List.length_cons] at hn
        rcases extend_ok h with ⟨hk, rfl, rfl⟩ | ⟨op, a, us, hop, hk, hus, hq, h⟩
        · exact ⟨l, .stop hk, rfl⟩
        · replace hq : resume g fin (g.threshold (.binary op)) none ts = ⟨.ok a, us⟩ := hq
          obtain ⟨r, right, rfl⟩ := ih ts.length (by omega) hq rfl
          replace h : resume g fin k (some (.infixed t op l r hop)) us = ⟨.ok e, rest⟩ := h
          obtain ⟨p, hp, he⟩ := ih us.length (by omega) h rfl
          exact ⟨p, .infixed hop hk right hp, he⟩

end Reads

/-! ## Which phrases are read -/

/-- A phrase that is well precedenced in front of `rest` and read whole at the threshold `k`. -/
structure Fits (g : Grouping) (k : Int) (p : Phrase) (rest : List Token) : Prop where
  ordered : p.WellPrecedenced g.precedence
  tighter : ∀ j ∈ p.leftPowers g.precedence, k < j
  closed : ∀ j ∈ p.rightReach g.precedence, (headKind rest).power ≤ j

section Fits

variable {g : Grouping}

/-- A phrase that fits is read, up to what could still extend it. -/
theorem Fits.reads {k : Int} {p q : Phrase} {rest rest' : List Token} (h : Fits g k p rest)
    (more : Reads g k (some p) rest q rest') : Reads g k none (p.yield ++ rest) q rest' := by
  induction p generalizing k q rest rest' with
  | atom t e ht => exact .atom ht more
  | paren l p r hl hr ih =>
    have hp : Fits g Kind.leastPower p (r :: rest) :=
      ⟨h.ordered, fun _ hj => Phrase.leastPower_lt_of_mem_leftPowers hj, fun j hj => by
        have := Phrase.leastPower_le_of_mem_rightReach hj
        simpa [headKind, hr, Kind.power] using this⟩
    have hstop : (headKind (r :: rest)).power ≤ Kind.leastPower := by
      simp [headKind, hr, Kind.power]
    have := Reads.paren hl hr (ih hp (.stop hstop)) more
    simpa [Phrase.yield] using this
  | prefixed t op p ht ih =>
    obtain ⟨hp, hop⟩ := h.ordered
    have hfit : Fits g op.threshold p rest :=
      ⟨hp, hop, fun j hj => h.closed j (List.mem_cons_of_mem _ hj)⟩
    exact .prefixed ht (ih hfit (.stop (h.closed _ List.mem_cons_self))) more
  | infixed t op l r ht ihl ihr =>
    obtain ⟨hl, hr, hlr, hrl⟩ := h.ordered
    have hfitl : Fits g k l (t :: (r.yield ++ rest)) :=
      ⟨hl, fun j hj => h.tighter j (List.mem_cons_of_mem _ hj), fun j hj => by
        simpa [headKind, ht, Kind.power] using hlr j hj⟩
    have hfitr : Fits g (g.threshold (.binary op)) r rest :=
      ⟨hr, hrl, fun j hj => h.closed j (List.mem_cons_of_mem _ hj)⟩
    have hright := ihr hfitr (.stop (h.closed _ List.mem_cons_self))
    have := ihl hfitl (.infixed ht (h.tighter _ List.mem_cons_self) hright more)
    simpa [Phrase.yield] using this

/-- What is read fits, and reading stops where nothing binds tighter than the threshold. -/
theorem Reads.fits {k : Int} {left : Option Phrase} {ts rest : List Token} {p : Phrase}
    (h : Reads g k left ts p rest) (hl : ∀ l, left = some l → Fits g k l ts) :
    (left.elim [] Phrase.yield) ++ ts = p.yield ++ rest ∧ Fits g k p rest ∧
      (headKind rest).power ≤ k := by
  induction h with
  | atom ht _ ih =>
    obtain ⟨hy, hfit⟩ := ih fun _ hl => by
      cases hl
      exact ⟨trivial, by simp [Phrase.leftPowers], by simp [Phrase.rightReach]⟩
    exact ⟨hy, hfit⟩
  | paren hl hr _ _ ihq ih =>
    obtain ⟨hq, hqfit, -⟩ := ihq fun _ hl => by cases hl
    obtain ⟨hy, hfit⟩ := ih fun _ hl => by
      cases hl
      exact ⟨hqfit.ordered, by simp [Phrase.leftPowers], by simp [Phrase.rightReach]⟩
    refine ⟨?_, hfit⟩
    rw [← hy]
    simpa [Phrase.yield] using hq
  | prefixed ht _ _ ihq ih =>
    obtain ⟨hq, hqfit, hstop⟩ := ihq fun _ hl => by cases hl
    obtain ⟨hy, hfit⟩ := ih fun _ hl => by
      cases hl
      refine ⟨⟨hqfit.ordered, hqfit.tighter⟩, by simp [Phrase.leftPowers], fun j hj => ?_⟩
      rcases List.mem_cons.1 hj with rfl | hj
      · exact hstop
      · exact hqfit.closed j hj
    refine ⟨?_, hfit⟩
    rw [← hy]
    simpa [Phrase.yield] using hq
  | infixed ht hk _ _ ihr ih =>
    obtain ⟨hr, hrfit, hstop⟩ := ihr fun _ hl => by cases hl
    have hlfit := hl _ rfl
    obtain ⟨hy, hfit⟩ := ih fun _ hl => by
      cases hl
      refine ⟨⟨hlfit.ordered, hrfit.ordered, fun j hj => ?_, hrfit.tighter⟩, fun j hj => ?_,
        fun j hj => ?_⟩
      · simpa [headKind, ht, Kind.power] using hlfit.closed j hj
      · rcases List.mem_cons.1 hj with rfl | hj
        · exact hk
        · exact hlfit.tighter j hj
      · rcases List.mem_cons.1 hj with rfl | hj
        · exact hstop
        · exact hrfit.closed j hj
    refine ⟨?_, hfit⟩
    rw [← hy]
    simpa [Phrase.yield] using hr
  | stop hs => exact ⟨rfl, hl _ rfl, hs⟩

end Fits

end Reckon
