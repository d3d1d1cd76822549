import Reckon.Text.ByteOrder

/-!
# Scope levels

A level binds names to things. Its entries are kept in strictly increasing byte order of their
names, so a name is bound at most once and two levels with the same bindings are equal.

* `Level.get?`, `Level.insert`: looking up and binding a name.
* `Level.get?_insert`: binding a name changes what that name is bound to and nothing else.
* `Level.ext_get?`: a level is determined by its bindings.
-/

namespace Reckon

variable {α : Type}

/-- Entries with names in strictly increasing byte order. -/
structure Level (α : Type) where
  entries : List (String × α)
  sorted : entries.Pairwise fun a b => Text.precedes a.1 b.1

namespace Level

/-- The level that binds nothing. -/
def empty : Level α := ⟨[], .nil⟩

instance : Inhabited (Level α) := ⟨empty⟩

/-- What the entries bind a name to. -/
def find? (name : String) : List (String × α) → Option α
  | [] => none
  | (n, v) :: rest => if n = name then some v else find? name rest

/-- What a name is bound to. -/
def get? (l : Level α) (name : String) : Option α := find? name l.entries

/-- Entries with `name` bound to `v`, whatever it was bound to before. -/
def put (name : String) (v : α) : List (String × α) → List (String × α)
  | [] => [(name, v)]
  | (n, w) :: rest =>
    if n = name then (name, v) :: rest
    else if Text.precedes name n then (name, v) :: (n, w) :: rest
    else (n, w) :: put name v rest

theorem mem_put {name : String} {v : α} {l : List (String × α)} {e : String × α}
    (h : e ∈ put name v l) : e = (name, v) ∨ e ∈ l := by
  induction l with
  | nil => exact .inl (List.mem_singleton.1 h)
  | cons head rest ih =>
    obtain ⟨n, w⟩ := head
    simp only [put] at h
    split at h
    · rcases List.mem_cons.1 h with h | h
      · exact .inl h
      · exact .inr (List.mem_cons_of_mem _ h)
    · split at h
      · exact List.mem_cons.1 h
      · rcases List.mem_cons.1 h with rfl | h
        · exact .inr List.mem_cons_self
        · exact (ih h).imp id (List.mem_cons_of_mem _)

theorem put_sorted (name : String) (v : α) {l : List (String × α)}
    (h : l.Pairwise fun a b => Text.precedes a.1 b.1) :
    (put name v l).Pairwise fun a b => Text.precedes a.1 b.1 := by
  induction l with
  | nil => exact List.pairwise_singleton _ _
  | cons head rest ih =>
    obtain ⟨n, w⟩ := head
    rw [List.pairwise_cons] at h
    simp only [put]
    split
    · rename_i hn
      subst hn
      exact List.pairwise_cons.2 h
    · rename_i hn
      split
      · rename_i hlt
        refine List.pairwise_cons.2 ⟨fun e he => ?_, List.pairwise_cons.2 h⟩
        rcases List.mem_cons.1 he with rfl | he
        · exact hlt
        · exact Text.precedes_trans hlt (h.1 e he)
      · rename_i hlt
        refine List.pairwise_cons.2 ⟨fun e he => ?_, ih h.2⟩
        rcases mem_put he with rfl | he
        · rcases Text.precedes_trichotomy name n with h' | h' | h'
          · exact absurd h' hlt
          · exact absurd h'.symm hn
          · exact h'
        · exact h.1 e he

/-- Binds a name, replacing what it was bound to. -/
def insert (l : Level α) (name : String) (v : α) : Level α :=
  ⟨put name v l.entries, put_sorted name v l.sorted⟩

theorem find?_put (name other : String) (v : α) (l : List (String × α)) :
    find? other (put name v l) = if other = name then some v else find? other l := by
  induction l with
  | nil =>
    simp only [put, find?]
    by_cases h : other = name
    · simp [h]
    · simp [h, Ne.symm h]
  | cons head rest ih =>
    obtain ⟨n, w⟩ := head
    simp only [put]
    split
    · rename_i hn
      subst hn
      by_cases h : other = n
      · simp [find?, h]
      · simp [find?, h, Ne.symm h]
    · rename_i hn
      split
      · by_cases h : other = name
        · simp [find?, h]
        · simp [find?, h, Ne.symm h]
      · simp only [find?, ih]
        by_cases h : other = name
        · subst h; simp [hn]
        · simp [h]

@[simp] theorem get?_empty (name : String) : (empty : Level α).get? name = none := rfl

theorem get?_insert (l : Level α) (name other : String) (v : α) :
    (l.insert name v).get? other = if other = name then some v else l.get? other :=
  find?_put name other v l.entries

theorem find?_eq_some_iff {l : List (String × α)} (h : l.Pairwise fun a b => Text.precedes a.1 b.1)
    {name : String} {v : α} : find? name l = some v ↔ (name, v) ∈ l := by
  induction l with
  | nil => simp [find?]
  | cons head rest ih =>
    obtain ⟨n, w⟩ := head
    rw [List.pairwise_cons] at h
    simp only [find?, List.mem_cons, Prod.mk.injEq]
    split
    · rename_i hn
      subst hn
      refine ⟨fun hv => .inl ⟨rfl, (Option.some.inj hv).symm⟩, fun hv => ?_⟩
      rcases hv with ⟨-, rfl⟩ | hv
      · rfl
      · exact absurd (h.1 _ hv) (Text.precedes_irrefl n)
    · rename_i hn
      rw [ih h.2]
      exact ⟨.inr, fun hv => hv.elim (fun e => absurd e.1.symm hn) id⟩

/-- The entries of a level are its bindings. -/
theorem mem_entries_iff (l : Level α) (name : String) (v : α) :
    (name, v) ∈ l.entries ↔ l.get? name = some v :=
  (find?_eq_some_iff l.sorted).symm

private theorem sorted_ext {l m : List (String × α)}
    (hl : l.Pairwise fun a b => Text.precedes a.1 b.1)
    (hm : m.Pairwise fun a b => Text.precedes a.1 b.1) (h : ∀ e, e ∈ l ↔ e ∈ m) : l = m := by
  induction l generalizing m with
  | nil =>
    cases m with
    | nil => rfl
    | cons b m => exact absurd ((h b).2 List.mem_cons_self) List.not_mem_nil
  | cons a l ih =>
    cases m with
    | nil => exact absurd ((h a).1 List.mem_cons_self) List.not_mem_nil
    | cons b m =>
      rw [List.pairwise_cons] at hl hm
      -- the first entries agree: each comes before all others of its own list
      have hab : a = b := by
        rcases List.mem_cons.1 ((h a).1 List.mem_cons_self) with hab | ha
        · exact hab
        · rcases List.mem_cons.1 ((h b).2 List.mem_cons_self) with hba | hb
          · exact hba.symm
          · exact absurd (Text.precedes_trans (hl.1 b hb) (hm.1 a ha)) (Text.precedes_irrefl a.1)
      subst hab
      refine congrArg (a :: ·) (ih hl.2 hm.2 fun e => ⟨fun he => ?_, fun he => ?_⟩)
      · rcases List.mem_cons.1 ((h e).1 (List.mem_cons_of_mem a he)) with rfl | he'
        · exact absurd (hl.1 e he) (Text.precedes_irrefl e.1)
        · exact he'
      · rcases List.mem_cons.1 ((h e).2 (List.mem_cons_of_mem a he)) with rfl | he'
        · exact absurd (hm.1 e he) (Text.precedes_irrefl e.1)
        · exact he'

/-- A level is determined by its bindings. -/
theorem ext_get? {l m : Level α} (h : ∀ name, l.get? name = m.get? name) : l = m := by
  obtain ⟨es, hes⟩ := l
  obtain ⟨fs, hfs⟩ := m
  have : es = fs := by
    refine sorted_ext hes hfs fun e => ?_
    rw [← find?_eq_some_iff hes, ← find?_eq_some_iff hfs]
    exact ⟨fun he => (h e.1).symm.trans he, fun he => (h e.1).trans he⟩
  subst this
  rfl

end Level

end Reckon
