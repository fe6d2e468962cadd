import Mathlib.Data.List.Perm.Subperm
import ViewTemplate.Proofs.Value.ArrayEntries
import ViewTemplate.Value.Compare

namespace ViewTemplate

/-- The keys of every map are distinct, at every depth: an ordered map has one entry for each
key. -/
inductive DistinctKeys : Value → Prop where
  | scalar {v : Value} (h : v.isArray = false) : DistinctKeys v
  | list {items : List Value} (h : ∀ v ∈ items, DistinctKeys v) : DistinctKeys (.list items)
  | map {es : Entries Value} (hkeys : (Entries.keys es).Nodup) (h : ∀ p ∈ es, DistinctKeys p.2) :
      DistinctKeys (.map es)

theorem DistinctKeys.list_of_scalars {items : List Value} (h : ∀ v ∈ items, v.isArray = false) :
    DistinctKeys (.list items) :=
  .list fun v hv => .scalar (h v hv)

namespace Entries

variable {α : Type} {a b : Entries α} {R : α → α → Prop}

theorem get?_of_mem (ha : (keys a).Nodup) {p : String × α} (hp : p ∈ a) :
    get? a p.1 = some p.2 := by
  induction a with
  | nil => cases hp
  | cons q rest ih =>
    obtain ⟨k, v⟩ := q
    rw [keys, List.map_cons, List.nodup_cons] at ha
    rw [get?]
    rcases List.mem_cons.1 hp with rfl | hp
    · rw [if_pos rfl]
    · have hne : k ≠ p.1 := fun hk => ha.1 (List.mem_map.2 ⟨p, hp, hk.symm⟩)
      rw [if_neg hne, ih ha.2 hp]

/-- Every entry of the first map has a partner under its key in the second. -/
def Partnered (R : α → α → Prop) (a b : Entries α) : Prop :=
  ∀ p ∈ a, ∃ y, get? b p.1 = some y ∧ R p.2 y

theorem Partnered.keys_subset (h : Partnered R a b) : keys a ⊆ keys b := by
  intro k hk
  obtain ⟨p, hp, rfl⟩ := List.mem_map.1 hk
  obtain ⟨y, hy, -⟩ := h p hp
  exact List.mem_map.2 ⟨_, mem_of_get? hy, rfl⟩

/-- Maps of one size that hold each key once have the same keys, where the first has its keys in the
second. -/
theorem Partnered.keys_perm (h : Partnered R a b) (ha : (keys a).Nodup)
    (hlength : a.length = b.length) : (keys a).Perm (keys b) := by
  refine (List.subperm_of_subset ha h.keys_subset).perm_of_length_le ?_
  simp [keys, hlength]

/-- The check in one direction is enough for maps of one size. -/
theorem Partnered.swap (h : Partnered R a b) (ha : (keys a).Nodup) (hb : (keys b).Nodup)
    (hlength : a.length = b.length) : Partnered (fun y x => R x y) b a := by
  intro q hq
  have hkey : q.1 ∈ keys a := (h.keys_perm ha hlength).mem_iff.2 (List.mem_map_of_mem hq)
  obtain ⟨p, hp, hpq⟩ := List.mem_map.1 hkey
  obtain ⟨y, hy, hR⟩ := h p hp
  rw [hpq, get?_of_mem hb hq] at hy
  cases hy
  exact ⟨p.2, by rw [← hpq, get?_of_mem ha hp], hR⟩

theorem Partnered.mono {S : α → α → Prop} (h : Partnered R a b)
    (hRS : ∀ p ∈ a, ∀ q ∈ b, R p.2 q.2 → S p.2 q.2) : Partnered S a b := by
  intro p hp
  obtain ⟨y, hy, hR⟩ := h p hp
  exact ⟨y, hy, hRS p hp _ (mem_of_get? hy) hR⟩

theorem partnered_congr {S : α → α → Prop} (hRS : ∀ p ∈ a, ∀ q ∈ b, R p.2 q.2 ↔ S p.2 q.2) :
    Partnered R a b ↔ Partnered S a b :=
  ⟨fun h => h.mono fun p hp q hq => (hRS p hp q hq).1,
    fun h => h.mono fun p hp q hq => (hRS p hp q hq).2⟩

theorem partnered_comm {S : α → α → Prop} (ha : (keys a).Nodup) (hb : (keys b).Nodup)
    (hlength : a.length = b.length) (hRS : ∀ p ∈ a, ∀ q ∈ b, R p.2 q.2 ↔ S q.2 p.2) :
    Partnered R a b ↔ Partnered S b a :=
  ⟨fun h => (h.swap ha hb hlength).mono fun q hq p hp => (hRS p hp q hq).1,
    fun h => (h.swap hb ha hlength.symm).mono fun p hp q hq => (hRS p hp q hq).2⟩

theorem partnered_of_forall₂ (hb : (keys b).Nodup)
    (h : List.Forall₂ (fun p q => p.1 = q.1 ∧ R p.2 q.2) a b) : Partnered R a b := by
  intro p hp
  obtain ⟨i, hi, rfl⟩ := List.getElem_of_mem hp
  have hlength := h.length_eq
  obtain ⟨hkey, hR⟩ := (List.forall₂_iff_get.1 h).2 i hi (by omega)
  refine ⟨b[i].2, ?_, hR⟩
  rw [show a[i].1 = b[i].1 from hkey]
  exact get?_of_mem hb (List.getElem_mem _)

end Entries

theorem forall₂_comm_of_mem {α β : Type} {xs : List α} {ys : List β} {R : α → β → Prop}
    {S : β → α → Prop} (h : ∀ x ∈ xs, ∀ y ∈ ys, R x y ↔ S y x) :
    List.Forall₂ R xs ys ↔ List.Forall₂ S ys xs := by
  rw [List.forall₂_iff_get, List.forall₂_iff_get]
  constructor
  · rintro ⟨hlength, hR⟩
    exact ⟨hlength.symm, fun i hi hi' =>
      (h _ (List.get_mem ..) _ (List.get_mem ..)).1 (hR i hi' hi)⟩
  · rintro ⟨hlength, hS⟩
    exact ⟨hlength.symm, fun i hi hi' =>
      (h _ (List.get_mem ..) _ (List.get_mem ..)).2 (hS i hi' hi)⟩

namespace Value

theorem looseEqItems_iff {xs ys : List Value} :
    looseEqItems xs ys = true ↔ List.Forall₂ (fun x y => looseEq x y = true) xs ys := by
  induction xs generalizing ys with
  | nil => cases ys <;> simp [looseEqItems]
  | cons x xs ih => cases ys <;> simp [looseEqItems, ih]

theorem sameItems_iff {xs ys : List Value} :
    sameItems xs ys = true ↔ List.Forall₂ (fun x y => same x y = true) xs ys := by
  induction xs generalizing ys with
  | nil => cases ys <;> simp [sameItems]
  | cons x xs ih => cases ys <;> simp [sameItems, ih]

theorem identicalItems_iff {xs ys : List Value} :
    identicalItems xs ys = true ↔ List.Forall₂ (fun x y => identical x y = true) xs ys := by
  induction xs generalizing ys with
  | nil => cases ys <;> simp [identicalItems]
  | cons x xs ih => cases ys <;> simp [identicalItems, ih]

theorem looseEqEntries_iff {a b : Entries Value} :
    looseEqEntries a b = true ↔ Entries.Partnered (fun x y => looseEq x y = true) a b := by
  induction a with
  | nil => simp [looseEqEntries, Entries.Partnered]
  | cons p rest ih =>
    obtain ⟨k, x⟩ := p
    cases hk : Entries.get? b k <;>
      simp [looseEqEntries, hk, ih, Entries.Partnered]

theorem sameEntries_iff {a b : Entries Value} :
    sameEntries a b = true ↔ Entries.Partnered (fun x y => same x y = true) a b := by
  induction a with
  | nil => simp [sameEntries, Entries.Partnered]
  | cons p rest ih =>
    obtain ⟨k, x⟩ := p
    cases hk : Entries.get? b k <;>
      simp [sameEntries, hk, ih, Entries.Partnered]

theorem identicalEntries_iff {a b : Entries Value} :
    identicalEntries a b = true ↔
      List.Forall₂ (fun p q => p.1 = q.1 ∧ identical p.2 q.2 = true) a b := by
  induction a generalizing b with
  | nil => cases b <;> simp [identicalEntries]
  | cons p rest ih => cases b <;> simp [identicalEntries, ih, and_assoc]

/-- A relation that holds of identical scalars, and of arrays whose members it relates, holds of all
identical values. -/
theorem of_identical {R : Value → Value → Prop} {a b : Value}
    (scalar : ∀ {a b}, a.isArray = false → a.identical b = true → R a b)
    (list : ∀ {xs ys}, List.Forall₂ R xs ys → R (.list xs) (.list ys))
    (map : ∀ {es others}, es.length = others.length → Entries.Partnered R es others →
      R (.map es) (.map others))
    (ha : DistinctKeys a) (hb : DistinctKeys b) (h : a.identical b = true) : R a b := by
  induction ha generalizing b with
  | scalar ha => exact scalar ha h
  | @list items _ ih =>
    cases hb with
    | scalar hb => cases b <;> first | cases h | cases hb
    | map _ _ => cases h
    | @list others hb =>
      have hitems := identicalItems_iff.1 h
      refine list ?_
      rw [List.forall₂_iff_get] at hitems ⊢
      exact ⟨hitems.1, fun i hi hi' =>
        ih _ (List.get_mem ..) (hb _ (List.get_mem ..)) (hitems.2 i hi hi')⟩
  | @map es _ _ ih =>
    cases hb with
    | scalar hb => cases b <;> first | cases h | cases hb
    | list _ => cases h
    | @map others hkeys hb =>
      have hentries := identicalEntries_iff.1 h
      have hpartners : Entries.Partnered (fun x y => identical x y = true) es others :=
        Entries.partnered_of_forall₂ hkeys hentries
      exact map hentries.length_eq (hpartners.mono fun p hp q hq => ih p hp (hb q hq))

end Value

end ViewTemplate
