import Reckon.Proofs.Expr.Parts

/-!
# Places of parsing

All locations that parsing knows of are locations of tokens. It reports an error at a token, and
every node of a tree stands where a token stands that makes it a node: a literal, a name or an
operator, and never a parenthesis.

* `ParseStep.FailsWithin`: the locations at which a step can fail.
* `exists_token_of_parse_error`: parsing fails at one of the tokens.
* `exists_token_of_part`: the parts of a parsed program stand where tokens do that are no
  parentheses.
-/

namespace Reckon

open Token (Kind)

/-! ## Failures -/

/-- If the step fails, it does so at a location that has the property `P`. -/
def ParseStep.FailsWithin {α : Type} (P : Location → Prop) (s : ParseStep α) : Prop :=
  ∀ err, s.result = .error err → P err.loc

section Failures

variable {P : Location → Prop} {g : Grouping} {fin : Location} {ts : List Token}

theorem failsWithin_ok {α : Type} (a : α) (rest : List Token) :
    (⟨.ok a, rest⟩ : ParseStep α).FailsWithin P := by
  intro err herr
  cases herr

theorem failsWithin_error {α : Type} {err : Located ParseError} (h : P err.loc)
    (rest : List Token) : (⟨.error err, rest⟩ : ParseStep α).FailsWithin P := by
  intro err' herr
  cases herr
  exact h

theorem ParseStep.FailsWithin.map {α β : Type} {s : ParseStep α} (h : s.FailsWithin P)
    (f : α → β) : (s.map f).FailsWithin P := by
  obtain ⟨result, rest⟩ := s
  cases result with
  | error err => exact failsWithin_error (h err rfl) rest
  | ok a => exact failsWithin_ok (f a) rest

theorem failsWithin_closeParen {loc : Location} {s : ParseStep Expr} (hloc : P loc)
    (h : s.FailsWithin P) : (closeParen loc s).FailsWithin P := by
  obtain ⟨result, rest⟩ := s
  cases result with
  | error err =>
    rw [closeParen]
    exact failsWithin_error (h err rfl) rest
  | ok e =>
    cases rest with
    | nil => exact failsWithin_error hloc []
    | cons t rest =>
      simp only [closeParen]
      split
      · exact failsWithin_ok e rest
      · exact failsWithin_error hloc (t :: rest)

theorem loc_of_join_error {left right : Expr} {t : Token} {err : Located ParseError}
    (h : join left t right = .error err) : err.loc = t.loc := by
  unfold join at h
  split at h
  · split at h <;> cases h
  · split at h <;> cases h <;> rfl

theorem failsWithin_seed {t : Token} (ht : P t.loc)
    (h : ∀ k, (parseExpr g fin k ts).FailsWithin P) : (seed g fin t ts).FailsWithin P := by
  rw [seed_eq]
  split
  · exact failsWithin_closeParen ht (h _)
  · exact (h _).map _
  · split
    · exact failsWithin_ok _ ts
    · exact failsWithin_error ht ts
  · exact failsWithin_ok _ ts
  · exact failsWithin_ok _ ts
  · exact failsWithin_error ht ts
  · split
    · exact (h _).map _
    · exact failsWithin_error ht ts

/-- The induction is on the tokens that remain, as for every statement about extensions. -/
theorem failsWithin_extend {k : Int} {left : Expr} (hfin : P fin) (hts : ∀ t ∈ ts, P t.loc)
    (h : ∀ us : List Token, us.length < ts.length → (∀ t ∈ us, P t.loc) →
      ∀ k, (parseExpr g fin k us).FailsWithin P) :
    (extend g fin k left ts).FailsWithin P := by
  induction hn : ts.length using Nat.strongRecOn generalizing ts left with
  | ind n ih =>
    subst hn
    cases ts with
    | nil =>
      rw [extend_nil]
      split
      · exact failsWithin_error hfin []
      · exact failsWithin_ok left []
    | cons t ts =>
      have hexpr := h ts (Nat.lt_succ_self _) (fun u hu => hts u (List.mem_cons_of_mem t hu))
        (g.threshold t.kind)
      have hrest := (parseExpr_rest g fin (g.threshold t.kind) ts).trans (List.tail_suffix ts)
      rw [extend_cons]
      split
      · rcases hq : parseExpr g fin (g.threshold t.kind) ts with ⟨err | right, rest⟩
        · rw [hq] at hexpr
          exact hexpr
        · rw [hq] at hrest
          have hlen : rest.length < (t :: ts).length := Nat.lt_succ_of_le hrest.length_le
          dsimp only
          cases hjoin : join left t right with
          | error err =>
            exact failsWithin_error (loc_of_join_error hjoin ▸ hts t List.mem_cons_self) rest
          | ok e =>
            exact ih rest.length hlen
              (fun u hu => hts u (List.mem_cons_of_mem t (hrest.mem hu)))
              (fun us hus => h us (Nat.lt_trans hus hlen)) rfl
      · exact failsWithin_ok left (t :: ts)

/-- **An expression** fails at one of the tokens, or at the end of the input. -/
theorem failsWithin_parseExpr (hfin : P fin) (hts : ∀ t ∈ ts, P t.loc) (k : Int) :
    (parseExpr g fin k ts).FailsWithin P := by
  induction hn : ts.length using Nat.strongRecOn generalizing ts k with
  | ind n ih =>
    subst hn
    cases ts with
    | nil =>
      rw [parseExpr_nil]
      exact failsWithin_error hfin []
    | cons t ts =>
      have hts' : ∀ u ∈ ts, P u.loc := fun u hu => hts u (List.mem_cons_of_mem t hu)
      have hseed := failsWithin_seed (hts t List.mem_cons_self)
        fun k => ih ts.length (Nat.lt_succ_self _) hts' k rfl
      have hrest := seed_rest g fin t ts
      rw [parseExpr_cons]
      rcases hs : seed g fin t ts with ⟨err | left, rest⟩
      · rw [hs] at hseed
        exact hseed
      · rw [hs] at hrest
        have hlen : rest.length < (t :: ts).length := Nat.lt_succ_of_le hrest.length_le
        exact failsWithin_extend hfin (fun u hu => hts' u (hrest.mem hu)) fun us hus hP k =>
          ih us.length (Nat.lt_trans hus hlen) hP k rfl

theorem failsWithin_parseProgram (hfin : P fin) (hts : ∀ t ∈ ts, P t.loc) :
    (parseProgram g fin ts).FailsWithin P := by
  induction hn : ts.length using Nat.strongRecOn generalizing ts with
  | ind n ih =>
    subst hn
    by_cases hend : headKind ts = .eof
    · rw [parseProgram_eof fin hend]
      exact failsWithin_ok [] ts
    · cases ts with
      | nil => exact absurd rfl hend
      | cons t ts =>
        have hexpr := failsWithin_parseExpr (g := g) hfin hts Kind.leastPower
        have hrest := parseExpr_rest g fin Kind.leastPower (t :: ts)
        rcases hq : parseExpr g fin Kind.leastPower (t :: ts) with ⟨err | e, rest⟩
        · rw [parseProgram_of_error hend hq]
          rw [hq] at hexpr
          exact failsWithin_error (hexpr err rfl) rest
        · rw [parseProgram_of_ok hend hq]
          rw [hq] at hrest
          have hnext := ih rest.length (Nat.lt_succ_of_le hrest.length_le)
            (fun u hu => hts u (List.mem_cons_of_mem t (hrest.mem hu))) rfl
          exact hnext.map _

end Failures

/-- **Parsing fails at a token**, if there are any. -/
theorem exists_token_of_parse_error {ts : List Token} {err : Located ParseError} (hts : ts ≠ [])
    (h : parse ts = .error err) : ∃ t ∈ ts, err.loc = t.loc := by
  refine failsWithin_parseProgram (P := fun loc => ∃ t ∈ ts, loc = t.loc) ?_
    (fun t ht => ⟨t, ht, rfl⟩) err h
  refine ⟨ts.getLast hts, List.getLast_mem hts, ?_⟩
  rw [endLocation, List.getLast?_eq_some_getLast hts]

/-! ## Nodes -/

theorem BinaryOp.mem_parts_node {op : BinaryOp} {loc : Location} {l r x : Expr}
    (h : x ∈ (op.node loc l r).parts) : x.loc = loc ∨ x ∈ l.parts ∨ x ∈ r.parts := by
  unfold BinaryOp.node at h
  split at h
  all_goals
    simp only [Expr.parts, List.mem_cons, List.mem_append] at h
    rcases h with rfl | h
    · exact .inl rfl
    · exact .inr h

theorem PrefixOp.mem_parts_node {op : PrefixOp} {loc : Location} {e x : Expr}
    (h : x ∈ (op.node loc e).parts) : x.loc = loc ∨ x ∈ e.parts := by
  cases op with
  | print | unary op =>
    rcases List.mem_cons.1 h with rfl | h
    · exact .inl rfl
    · exact .inr h

/-- **Every part of a phrase** stands at one of its tokens, which is no parenthesis. -/
theorem Phrase.exists_token_of_part (p : Phrase) {x : Expr} (h : x ∈ p.expr.parts) :
    ∃ t ∈ p.yield, t.kind ≠ .leftParen ∧ t.kind ≠ .rightParen ∧ x.loc = t.loc := by
  induction p with
  | atom t e ht =>
    refine ⟨t, List.mem_singleton_self t, ?_⟩
    rcases Token.atom?_eq_some ht with ⟨hk, n, -, rfl⟩ | ⟨b, hk, rfl⟩ | ⟨hk, rfl⟩
    all_goals
      obtain rfl := List.mem_singleton.1 h
      rw [hk]
      exact ⟨by simp, by simp, rfl⟩
  | paren l p r _ _ ih =>
    obtain ⟨t, ht, hx⟩ := ih h
    exact ⟨t, List.mem_cons_of_mem l (List.mem_append_left _ ht), hx⟩
  | prefixed t op p ht ih =>
    rcases PrefixOp.mem_parts_node h with hloc | h
    · refine ⟨t, List.mem_cons_self, ?_, ?_, hloc⟩
      all_goals
        intro hk
        rw [hk] at ht
        simp [Kind.prefixOp?] at ht
    · obtain ⟨u, hu, hx⟩ := ih h
      exact ⟨u, List.mem_cons_of_mem t hu, hx⟩
  | infixed t op l r ht ihl ihr =>
    rcases BinaryOp.mem_parts_node h with hloc | h | h
    · refine ⟨t, List.mem_append_right _ List.mem_cons_self, ?_⟩
      rw [ht]
      exact ⟨by simp, by simp, hloc⟩
    · obtain ⟨u, hu, hx⟩ := ihl h
      exact ⟨u, List.mem_append_left _ hu, hx⟩
    · obtain ⟨u, hu, hx⟩ := ihr h
      exact ⟨u, List.mem_append_right _ (List.mem_cons_of_mem t hu), hx⟩

/-- **Every part of a parsed program** stands at a token that is no parenthesis, and not the end of
the input. -/
theorem exists_token_of_part {ts : List Token} {p : Program} {e x : Expr} (h : parse ts = .ok p)
    (he : e ∈ p) (hx : x ∈ e.parts) :
    ∃ t ∈ ts, t.kind ≠ .eof ∧ t.kind ≠ .leftParen ∧ t.kind ≠ .rightParen ∧ x.loc = t.loc := by
  obtain ⟨ps, rest, -, rfl, rfl, -⟩ := parse_eq_ok_iff.1 h
  obtain ⟨q, hq, rfl⟩ := List.mem_map.1 he
  obtain ⟨t, ht, hstands⟩ := q.exists_token_of_part hx
  exact ⟨t, List.mem_append_left _ (List.mem_flatMap.2 ⟨q, hq, ht⟩),
    Phrase.ne_eof_of_mem_yield ht, hstands⟩

end Reckon
