import Mathlib.Data.List.Pairwise
import Remux.Common.Lists
import Remux.Common.Throws

/-!
# Database tables

A table is a list of rows, in the order they came, that meets the
constraints of its schema: no two of its rows share a key, and each meets
its `CHECK`. A statement computes the rows it leaves and writes them; it
fails when they break a constraint, and nothing is written then.

What a statement leaves is said by membership (`mem_insert`, `mem_update`,
`mem_upsert`), and `eq_of_clash` says that a key names one row.
-/

namespace Remux

open List

/-- **What a statement fails with**: a constraint of the named table, or
what the program throws itself. -/
inductive StoreError where
  | unique (table : String)
  | check (table : String)
  | foreignKey (table : String)
  | thrown (message : String)
  deriving DecidableEq

/-- **A schema**: the keys and the `CHECK` of a table. -/
class Row (ρ : Type*) where
  /-- The name of the table. -/
  table : String
  /-- The two rows share a primary or a unique key. -/
  clash : ρ → ρ → Bool
  clash_comm : ∀ r r', clash r r' = clash r' r
  /-- The row meets the `CHECK` constraints. -/
  check : ρ → Bool

/-- **A table**: rows that meet the constraints. -/
structure Table (ρ : Type*) [Row ρ] where
  rows : List ρ
  unique : rows.Pairwise fun r r' => Row.clash r r' = false
  checked : ∀ r ∈ rows, Row.check r = true

namespace Table

variable {ρ : Type*} [Row ρ]

@[ext] theorem ext {t t' : Table ρ} (h : t.rows = t'.rows) : t = t' := by
  cases t
  cases t'
  cases h
  rfl

/-- The table without rows. -/
def empty : Table ρ := ⟨[], List.Pairwise.nil, nofun⟩

/-- Leave these rows, if they meet the constraints. -/
def write (rows : List ρ) : Except StoreError (Table ρ) :=
  if hunique : rows.Pairwise fun r r' => Row.clash r r' = false then
    if hcheck : ∀ r ∈ rows, Row.check r = true then .ok ⟨rows, hunique, hcheck⟩
    else .error (.check (Row.table ρ))
  else .error (.unique (Row.table ρ))

/-- `SELECT … WHERE`, its first row. -/
def find? (t : Table ρ) (p : ρ → Bool) : Option ρ := t.rows.find? p

/-- `INSERT`. -/
def insert (t : Table ρ) (r : ρ) : Except StoreError (Table ρ) := write (t.rows ++ [r])

/-- `INSERT OR IGNORE`: a row that breaks a constraint is left out. -/
def insertOrIgnore (t : Table ρ) (r : ρ) : Table ρ :=
  match t.insert r with
  | .ok t' => t'
  | .error _ => t

/-- `UPDATE … SET … WHERE`. -/
def update (t : Table ρ) (p : ρ → Bool) (f : ρ → ρ) : Except StoreError (Table ρ) :=
  write (t.rows.map fun r => if p r then f r else r)

/-- `INSERT … ON CONFLICT DO UPDATE SET`: the rows of the same key are
updated, if there are any. -/
def upsert (t : Table ρ) (r : ρ) (same : ρ → Bool) (f : ρ → ρ) : Except StoreError (Table ρ) :=
  if t.rows.any same then t.update same f else t.insert r

/-- `DELETE … WHERE`. -/
def delete (t : Table ρ) (p : ρ → Bool) : Table ρ where
  rows := t.rows.filter fun r => !p r
  unique := t.unique.sublist List.filter_sublist
  checked r hr := t.checked r (List.mem_filter.1 hr).1

/-- `COALESCE(MAX(n), -1) + 1`. -/
def next (ns : List ℕ) : ℕ := ns.foldr (fun n m => max (n + 1) m) 0

/-- `INSERT … REFERENCES`: the row referred to must be there. -/
def require (found : Bool) (table : String) : Except StoreError Unit :=
  Remux.check found (.foreignKey table)

variable {t t' : Table ρ} {r r' : ρ} {p same : ρ → Bool} {f : ρ → ρ} {rows : List ρ}
    {e : StoreError}

/-! ## What is in a table -/

/-- **A key names one row.** -/
theorem eq_of_clash (hr : r ∈ t.rows) (hr' : r' ∈ t.rows) (h : Row.clash r r' = true) : r = r' := by
  by_contra hne
  have : Std.Symm fun a b : ρ => Row.clash a b = false :=
    ⟨fun a b hab => by rw [Row.clash_comm, hab]⟩
  rw [t.unique.forall hr hr' hne] at h
  cases h

theorem find?_mem (h : t.find? p = some r) : r ∈ t.rows := mem_of_find?_eq_some h

theorem find?_holds (h : t.find? p = some r) : p r = true := find?_some h

theorem find?_eq_none : t.find? p = none ↔ ∀ r ∈ t.rows, p r = false := by
  simp [find?]

/-- A row found by a key is the one found. -/
theorem find?_eq_some_of_clash (hr : r ∈ t.rows) (hp : p r = true)
    (hclash : ∀ r' ∈ t.rows, p r' = true → Row.clash r' r = true) : t.find? p = some r := by
  cases hfind : t.find? p with
  | none => rw [find?_eq_none.1 hfind r hr] at hp; cases hp
  | some r' =>
    have hr' := find?_mem hfind
    exact congrArg some (eq_of_clash hr' hr (hclash r' hr' (find?_holds hfind)))

/-- The rows of a key are the one that has it. -/
theorem filter_eq_singleton (hr : r ∈ t.rows) (hp : p r = true)
    (hclash : ∀ r' ∈ t.rows, p r' = true → Row.clash r' r = true) : t.rows.filter p = [r] := by
  obtain ⟨before, after, hrows⟩ := append_of_mem hr
  have hunique := t.unique
  rw [hrows] at hunique hclash ⊢
  obtain ⟨-, htail, hbef⟩ := pairwise_append.1 hunique
  have haft := (pairwise_cons.1 htail).1
  have hfst : before.filter p = [] := by
    refine filter_eq_nil_iff.2 fun r' hr' hp' => ?_
    have := hclash r' (mem_append_left _ hr') hp'
    rw [hbef r' hr' r mem_cons_self] at this
    cases this
  have hlast : after.filter p = [] := by
    refine filter_eq_nil_iff.2 fun r' hr' hp' => ?_
    have := hclash r' (mem_append_right _ (mem_cons_of_mem _ hr')) hp'
    rw [Row.clash_comm, haft r' hr'] at this
    cases this
  rw [filter_append, filter_cons_of_pos hp, hfst, hlast, nil_append]

/-- The next number is above all there are. -/
theorem lt_next {n : ℕ} {ns : List ℕ} (h : n ∈ ns) : n < next ns := by
  induction ns with
  | nil => cases h
  | cons m ns ih =>
    have hstep : next (m :: ns) = max (m + 1) (next ns) := rfl
    rcases mem_cons.1 h with rfl | h
    · omega
    · have := ih h
      omega

/-! ## What a statement leaves -/

/-- A write that succeeds holds the rows it was given. -/
theorem write_eq_ok : write rows = .ok t ↔ t.rows = rows := by
  constructor
  · intro h
    unfold write at h
    split at h
    · split at h
      · cases h
        rfl
      · cases h
    · cases h
  · rintro rfl
    unfold write
    rw [dif_pos t.unique, dif_pos t.checked]

/-- Rows that share no key and meet their `CHECK` are written. -/
theorem write_isOk (hunique : rows.Pairwise fun r r' => Row.clash r r' = false)
    (hcheck : ∀ r ∈ rows, Row.check r = true) : ∃ t, write rows = .ok t :=
  ⟨⟨rows, hunique, hcheck⟩, write_eq_ok.2 rfl⟩

/-- What the rows broke. -/
theorem write_eq_error (h : write rows = .error e) :
    e = .unique (Row.table ρ) ∧ ¬ rows.Pairwise (fun r r' => Row.clash r r' = false) ∨
      e = .check (Row.table ρ) ∧ ∃ r ∈ rows, Row.check r = false := by
  unfold write at h
  split at h
  · split at h
    · cases h
    · next hcheck =>
      cases h
      refine .inr ⟨rfl, ?_⟩
      by_contra hnone
      refine hcheck fun r hr => ?_
      by_contra hr'
      exact hnone ⟨r, hr, Bool.not_eq_true _ ▸ hr'⟩
  · next hunique =>
    cases h
    exact .inl ⟨rfl, hunique⟩

theorem rows_insert (h : t.insert r = .ok t') : t'.rows = t.rows ++ [r] := write_eq_ok.1 h

theorem mem_insert (h : t.insert r = .ok t') : r' ∈ t'.rows ↔ r' ∈ t.rows ∨ r' = r := by
  rw [rows_insert h, mem_append, mem_singleton]

/-- A row of a new key that meets its `CHECK` is inserted. -/
theorem insert_isOk (hnew : ∀ r' ∈ t.rows, Row.clash r' r = false) (hcheck : Row.check r = true) :
    ∃ t', t.insert r = .ok t' := by
  refine write_isOk ?_ ?_
  · refine pairwise_append.2 ⟨t.unique, pairwise_singleton _ _, ?_⟩
    intro a ha b hb
    rw [mem_singleton.1 hb]
    exact hnew a ha
  · intro a ha
    rcases mem_concat.1 ha with ha | rfl
    · exact t.checked a ha
    · exact hcheck

theorem rows_update (h : t.update p f = .ok t') :
    t'.rows = t.rows.map fun r => if p r then f r else r := write_eq_ok.1 h

theorem mem_update (h : t.update p f = .ok t') :
    r' ∈ t'.rows ↔ ∃ r ∈ t.rows, (if p r then f r else r) = r' := by
  rw [rows_update h, mem_map]

/-- An update that moves no row to the key of another, and keeps every
`CHECK`, goes through. -/
theorem update_isOk (hclash : ∀ a ∈ t.rows, ∀ b ∈ t.rows, Row.clash a b = false →
      Row.clash (if p a then f a else a) (if p b then f b else b) = false)
    (hcheck : ∀ a ∈ t.rows, p a = true → Row.check (f a) = true) : ∃ t', t.update p f = .ok t' := by
  refine write_isOk ?_ ?_
  · rw [pairwise_map]
    exact t.unique.imp_of_mem fun ha hb hab => hclash _ ha _ hb hab
  · intro r hr
    obtain ⟨a, ha, rfl⟩ := mem_map.1 hr
    split
    · next hp => exact hcheck a ha hp
    · exact t.checked a ha

/-- An update that changes no row leaves the table. -/
theorem update_self (h : ∀ r ∈ t.rows, p r = true → f r = r) : t.update p f = .ok t := by
  have hid : (t.rows.map fun r => if p r then f r else r) = t.rows.map id := by
    refine map_congr_left fun r hr => ?_
    split
    · next hp => exact h r hr hp
    · rfl
  rw [update, hid, map_id]
  exact write_eq_ok.2 rfl

theorem mem_delete : r ∈ (t.delete p).rows ↔ r ∈ t.rows ∧ p r = false := by
  simp [delete]

theorem upsert_eq_update (h : ∃ old ∈ t.rows, same old = true) :
    t.upsert r same f = t.update same f :=
  if_pos (any_eq_true.2 h)

theorem upsert_eq_insert (h : ∀ old ∈ t.rows, same old = false) : t.upsert r same f = t.insert r :=
  if_neg (by simpa using h)

/-- **An upsert** updates the row of the key, or adds one. -/
theorem upsert_cases (h : t.upsert r same f = .ok t') :
    (∃ old ∈ t.rows, same old = true) ∧ t.update same f = .ok t' ∨
      (∀ old ∈ t.rows, same old = false) ∧ t.insert r = .ok t' := by
  unfold upsert at h
  split at h
  · next hany => exact .inl ⟨any_eq_true.1 hany, h⟩
  · next hany => exact .inr ⟨by simpa using hany, h⟩

end Table

end Remux
