import Reckon.Proofs.Grammar.Sentence

/-!
# Products that group to the left

Multiplication groups to the right, and it shares its level with division and remainder, which group
to the left. If it grouped to the left as well, the same tokens would be read, and a chain of these
operators would be one left spine.

* `Grouping.productsLeft`, `Precedence.productsLeft`: multiplication groups to the left.
* `Phrase.graft`, `Phrase.regroup`: the phrase that is read under this grouping.
* `Phrase.WellPrecedenced.regroup`, `Sentence.regroup`: it is well precedenced, so it is read.
* `Phrase.MultipliesLast`: no division or remainder stands behind a multiplication in one chain.
-/

namespace Reckon

open Token (Kind)

/-- The standard grouping, except that multiplication groups to the left. -/
def Grouping.productsLeft : Grouping where
  rightward kind := Grouping.standard.rightward kind && kind != .binary (.arith .mul)

namespace Precedence

/-- The language, except that multiplication groups to the left. -/
def productsLeft : Precedence :=
  { standard with rightward := fun op => standard.rightward op && op != .arith .mul }

theorem standard_reach_mul : standard.reach (.arith .mul) = 109 := rfl

theorem productsLeft_reach_mul : productsLeft.reach (.arith .mul) = 110 := rfl

theorem productsLeft_reach {op : BinaryOp} (h : op ≠ .arith .mul) :
    productsLeft.reach op = standard.reach op := by
  have hop : (op != .arith .mul) = true := by simp [h]
  simp only [reach, productsLeft, hop, Bool.and_true]

/-- No operator between operands binds tighter than multiplication. -/
theorem standard_power_le (op : BinaryOp) : standard.power (.binary op) ≤ 110 := by
  have hall : ∀ op ∈ BinaryOp.all, standard.power (.binary op) ≤ 110 := by decide
  exact hall op op.mem_all

/-- The operators on the level of multiplication. -/
theorem multiplicative {op : BinaryOp} (h : 109 < standard.power (.binary op)) :
    op = .arith .mul ∨ op = .arith .div ∨ op = .arith .mod := by
  have hall : ∀ op ∈ BinaryOp.all, 109 < standard.power (.binary op) →
      op = .arith .mul ∨ op = .arith .div ∨ op = .arith .mod := by decide
  exact hall op op.mem_all h

end Precedence

theorem Grouping.precedence_productsLeft : productsLeft.precedence = .productsLeft := by
  have hmul : ∀ op : BinaryOp,
      (Kind.binary op != .binary (.arith .mul)) = (op != .arith .mul) := by
    intro op
    rw [Bool.eq_iff_iff, bne_iff_ne, bne_iff_ne, ne_eq, Kind.binary.injEq]
  rw [Precedence.productsLeft, ← precedence_standard]
  simp only [precedence, productsLeft, hmul]

namespace Phrase

/-! ## Moving an operand down the left spine -/

/-- The phrase `r` with `l` and an operator in front of it, where the operator takes only the first
operand of `r` for its right operand. -/
def graft (t : Token) (op : BinaryOp) (ht : t.kind = .binary op) (l : Phrase) : Phrase → Phrase
  | infixed u op' a b hu => infixed u op' (graft t op ht l a) b hu
  | r => infixed t op l r ht

section Graft

variable {c : Precedence} {t : Token} {op : BinaryOp} {ht : t.kind = .binary op} {l : Phrase}

theorem yield_graft (r : Phrase) : (graft t op ht l r).yield = l.yield ++ t :: r.yield := by
  induction r with
  | infixed u op' a b hu iha _ => simp [graft, yield, iha]
  | _ => rfl

theorem leftPowers_graft (r : Phrase) :
    (graft t op ht l r).leftPowers c =
      r.leftPowers c ++ c.power (.binary op) :: l.leftPowers c := by
  induction r with
  | infixed u op' a b hu iha _ => simp [graft, leftPowers, iha]
  | _ => rfl

/-- What is open at the end was open at the end of `r`, or it is the operator in front of it. -/
theorem mem_rightReach_graft {r : Phrase} {k : Int}
    (h : k ∈ (graft t op ht l r).rightReach c) : k = c.reach op ∨ k ∈ r.rightReach c := by
  cases r with
  | infixed u op' a b hu => exact .inr h
  | _ => exact List.mem_cons.1 h

/-- The operator can be put in front if none on the left spine binds tighter than it holds. -/
theorem WellPrecedenced.graft {r : Phrase} (hl : l.WellPrecedenced c) (hr : r.WellPrecedenced c)
    (hlt : ∀ k ∈ l.rightReach c, c.power (.binary op) ≤ k)
    (hle : ∀ k ∈ r.leftPowers c, k ≤ c.reach op) : (graft t op ht l r).WellPrecedenced c := by
  induction r with
  | infixed u op' a b hu iha _ =>
    obtain ⟨ha, hb, hab, hba⟩ := hr
    refine ⟨iha ha fun k hk => hle k (List.mem_cons_of_mem _ hk), hb, fun k hk => ?_, hba⟩
    rcases mem_rightReach_graft hk with rfl | hk
    · exact hle _ List.mem_cons_self
    · exact hab k hk
  | atom u e hu => exact ⟨hl, hr, hlt, by simp [leftPowers]⟩
  | paren u p v hu hv => exact ⟨hl, hr, hlt, by simp [leftPowers]⟩
  | prefixed u op' p hu => exact ⟨hl, hr, hlt, by simp [leftPowers]⟩

end Graft

/-! ## The other reading -/

/-- The phrase with the same tokens in which multiplications group to the left. -/
def regroup : Phrase → Phrase
  | atom t e ht => atom t e ht
  | paren l p r hl hr => paren l p.regroup r hl hr
  | prefixed t op p ht => prefixed t op p.regroup ht
  | infixed t op l r ht =>
    if op = .arith .mul then graft t op ht l.regroup r.regroup
    else infixed t op l.regroup r.regroup ht

theorem yield_regroup (p : Phrase) : p.regroup.yield = p.yield := by
  induction p with
  | atom t e ht => rfl
  | paren l p r hl hr ih => simp only [regroup, yield, ih]
  | prefixed t op p ht ih => simp only [regroup, yield, ih]
  | infixed t op l r ht ihl ihr =>
    simp only [regroup]
    split
    · rw [yield_graft, ihl, ihr, yield]
    · simp only [yield, ihl, ihr]

/-- What does not extend a phrase does not extend the other reading. -/
theorem le_of_mem_rightReach_regroup {p : Phrase} {j : Int}
    (h : ∀ k ∈ p.rightReach .standard, j ≤ k) :
    ∀ k ∈ p.regroup.rightReach .productsLeft, j ≤ k := by
  induction p with
  | atom t e ht => exact h
  | paren l p r hl hr => intro k hk; cases hk
  | prefixed t op p ht ih =>
    intro k hk
    rcases List.mem_cons.1 hk with rfl | hk
    · exact h _ List.mem_cons_self
    · exact ih (fun k hk => h k (List.mem_cons_of_mem _ hk)) k hk
  | infixed t op l r ht _ ihr =>
    have hhead : j ≤ Precedence.standard.reach op := h _ List.mem_cons_self
    have hr := ihr fun k hk => h k (List.mem_cons_of_mem _ hk)
    intro k hk
    simp only [regroup] at hk
    split at hk
    · rename_i hop
      subst hop
      rw [Precedence.standard_reach_mul] at hhead
      rcases mem_rightReach_graft hk with rfl | hk
      · rw [Precedence.productsLeft_reach_mul]
        omega
      · exact hr k hk
    · rename_i hop
      rcases List.mem_cons.1 hk with rfl | hk
      · rwa [Precedence.productsLeft_reach hop]
      · exact hr k hk

/-- What a phrase is read after, its other reading is read after. -/
theorem WellPrecedenced.lt_of_mem_leftPowers_regroup {p : Phrase} (hp : p.WellPrecedenced .standard)
    {j : Int} (h : ∀ k ∈ p.leftPowers .standard, j < k) :
    ∀ k ∈ p.regroup.leftPowers .productsLeft, j < k := by
  induction p generalizing j with
  | infixed t op l r ht ihl ihr =>
    obtain ⟨hl, hr, -, hrl⟩ := hp
    have hhead : j < Precedence.standard.power (.binary op) := h _ List.mem_cons_self
    have hleft := ihl hl fun k hk => h k (List.mem_cons_of_mem _ hk)
    intro k hk
    simp only [regroup] at hk
    split at hk
    · rename_i hop
      subst hop
      rw [leftPowers_graft, List.mem_append, List.mem_cons] at hk
      rcases hk with hk | rfl | hk
      · -- the operators on the left spine of the right operand are on the same level
        have hk : 109 < k := ihr hr hrl k hk
        have hhead : j < 110 := hhead
        omega
      · exact hhead
      · exact hleft k hk
    · rcases List.mem_cons.1 hk with rfl | hk
      · exact hhead
      · exact hleft k hk
  | _ => exact h

theorem le_of_mem_leftPowers {p : Phrase} {k : Int} (h : k ∈ p.leftPowers .productsLeft) :
    k ≤ 110 := by
  induction p with
  | infixed t op l r ht ihl _ =>
    rcases List.mem_cons.1 h with rfl | h
    · exact Precedence.standard_power_le op
    · exact ihl h
  | _ => cases h

/-- **The other reading is one**: it is well precedenced where multiplication groups to the left. -/
theorem WellPrecedenced.regroup {p : Phrase} (h : p.WellPrecedenced .standard) :
    p.regroup.WellPrecedenced .productsLeft := by
  induction p with
  | atom t e ht => trivial
  | paren l p r hl hr ih => exact ih h
  | prefixed t op p ht ih => exact ⟨ih h.1, h.1.lt_of_mem_leftPowers_regroup h.2⟩
  | infixed t op l r ht ihl ihr =>
    obtain ⟨hl, hr, hlr, hrl⟩ := h
    have hreach := le_of_mem_rightReach_regroup hlr
    simp only [Phrase.regroup]
    split
    · rename_i hop
      subst hop
      exact (ihl hl).graft (ihr hr) hreach fun k hk => le_of_mem_leftPowers hk
    · rename_i hop
      refine ⟨ihl hl, ihr hr, hreach, ?_⟩
      rw [Precedence.productsLeft_reach hop]
      exact hr.lt_of_mem_leftPowers_regroup hrl

/-! ## Chains of products -/

/-- The operators on the left spine. -/
def leftOps : Phrase → List BinaryOp
  | infixed _ op l _ _ => op :: l.leftOps
  | _ => []

/-- In every chain of multiplications, divisions and remainders the multiplications come last: the
right operand of none of them has a division or a remainder on its left spine. -/
def MultipliesLast : Phrase → Prop
  | atom _ _ _ => True
  | paren _ p _ _ _ => p.MultipliesLast
  | prefixed _ _ p _ => p.MultipliesLast
  | infixed _ op l r _ =>
    l.MultipliesLast ∧ r.MultipliesLast ∧
      (op = .arith .mul → .arith .div ∉ r.leftOps ∧ .arith .mod ∉ r.leftOps)

theorem leftPowers_eq_map (c : Precedence) (p : Phrase) :
    p.leftPowers c = p.leftOps.map fun op => c.power (.binary op) := by
  induction p with
  | infixed t op l r ht ihl _ => simp [leftPowers, leftOps, ihl]
  | _ => rfl

theorem leftOps_graft {t : Token} {op : BinaryOp} {ht : t.kind = .binary op} {l : Phrase}
    (r : Phrase) : (graft t op ht l r).leftOps = r.leftOps ++ op :: l.leftOps := by
  induction r with
  | infixed u op' a b hu iha _ => simp [graft, leftOps, iha]
  | _ => rfl

/-- The right operand of a multiplication is a chain of multiplications, if it is no division or
remainder. -/
theorem eq_mul_of_mem_leftOps {r : Phrase} (htight : ∀ k ∈ r.leftPowers .standard, 109 < k)
    (hdiv : .arith .div ∉ r.leftOps ∧ .arith .mod ∉ r.leftOps) :
    ∀ o ∈ r.leftOps, o = .arith .mul := by
  intro o ho
  rw [leftPowers_eq_map] at htight
  rcases Precedence.multiplicative (htight _ (List.mem_map_of_mem ho)) with h | rfl | rfl
  · exact h
  · exact absurd ho hdiv.1
  · exact absurd ho hdiv.2

/-- A chain of multiplications is one in the other reading. -/
theorem WellPrecedenced.eq_mul_of_mem_leftOps_regroup {p : Phrase}
    (hp : p.WellPrecedenced .standard) (hlast : p.MultipliesLast)
    (h : ∀ o ∈ p.leftOps, o = .arith .mul) : ∀ o ∈ p.regroup.leftOps, o = .arith .mul := by
  induction p with
  | infixed t op l r ht ihl ihr =>
    obtain ⟨hl, hr, -, hrl⟩ := hp
    obtain ⟨hlastl, hlastr, hdiv⟩ := hlast
    obtain rfl : op = .arith .mul := h _ List.mem_cons_self
    have hleft := ihl hl hlastl fun o ho => h o (List.mem_cons_of_mem _ ho)
    have hright := ihr hr hlastr (eq_mul_of_mem_leftOps hrl (hdiv rfl))
    intro o ho
    rw [Phrase.regroup, if_pos rfl, leftOps_graft, List.mem_append, List.mem_cons] at ho
    rcases ho with ho | rfl | ho
    · exact hright o ho
    · rfl
    · exact hleft o ho
  | _ => exact h

end Phrase

/-! ## Programs -/

/-- **Sentences.** Where a sentence is read, its phrases are read with multiplications to the
left. -/
theorem Sentence.regroup {ps : List Phrase} (h : Sentence .standard ps) :
    Sentence .productsLeft (ps.map Phrase.regroup) where
  ordered p hp := by
    obtain ⟨q, hq, rfl⟩ := List.mem_map.1 hp
    exact (h.ordered q hq).regroup
  apart p hp := by
    rw [← List.map_tail] at hp
    obtain ⟨q, hq, rfl⟩ := List.mem_map.1 hp
    rw [q.yield_regroup]
    exact h.apart q hq

theorem flatMap_yield_regroup (ps : List Phrase) :
    (ps.map Phrase.regroup).flatMap Phrase.yield = ps.flatMap Phrase.yield := by
  rw [List.flatMap_map]
  exact congrArg ps.flatMap (funext Phrase.yield_regroup)

/-- What is parsed is parsed also if multiplication groups to the left. -/
theorem Sentence.parseWith_productsLeft {ps : List Phrase} (h : Sentence .standard ps)
    {rest : List Token} (hrest : headKind rest = .eof) :
    parseWith .productsLeft (ps.flatMap Phrase.yield ++ rest) =
      .ok ((ps.map Phrase.regroup).map Phrase.expr) := by
  have hregroup : Sentence Grouping.productsLeft.precedence (ps.map Phrase.regroup) :=
    Grouping.precedence_productsLeft ▸ h.regroup
  rw [← flatMap_yield_regroup]
  exact parseWith_eq_ok_iff.2 ⟨_, rest, hregroup, rfl, rfl, hrest⟩

/-- Tokens up to the end of the input in whose chains the multiplications come last. -/
def MultipliesLast (ts : List Token) : Prop :=
  ∃ ps rest, Sentence .standard ps ∧ ts = ps.flatMap Phrase.yield ++ rest ∧ headKind rest = .eof ∧
    ∀ p ∈ ps, p.MultipliesLast

end Reckon
