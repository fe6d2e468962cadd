import ViewTemplate.Proofs.Value.Members

namespace ViewTemplate

namespace Entries

variable {α : Type} {a b : Entries α} {R : α → α → Prop}

def sorted (m : Entries α) : Entries α := m.mergeSort fun p q => p.1 ≤ q.1

theorem sorted_perm (m : Entries α) : (sorted m).Perm m := List.mergeSort_perm ..

theorem pairwise_keys_sorted (m : Entries α) : (keys (sorted m)).Pairwise (· ≤ ·) := by
  refine List.pairwise_map.2 ((List.pairwise_mergeSort ?_ ?_ m).imp fun h => of_decide_eq_true h)
  · intro p q r hpq hqr
    exact decide_eq_true (String.le_trans (of_decide_eq_true hpq) (of_decide_eq_true hqr))
  · intro p q
    simpa using String.le_total p.1 q.1

theorem keys_sorted_perm (m : Entries α) : (keys (sorted m)).Perm (keys m) := (sorted_perm m).map _

theorem keys_sorted_eq (h : (keys a).Perm (keys b)) : keys (sorted a) = keys (sorted b) :=
  (((keys_sorted_perm a).trans h).trans (keys_sorted_perm b).symm).eq_of_pairwise
    (fun _ _ _ _ => String.le_antisymm) (pairwise_keys_sorted a) (pairwise_keys_sorted b)

theorem get?_of_perm (h : a.Perm b) (ha : (keys a).Nodup) {key : String} {v : α}
    (hv : get? b key = some v) : get? a key = some v :=
  get?_of_mem ha (h.mem_iff.2 (mem_of_get? hv))

theorem Partnered.perm {c d : Entries α} (h : Partnered R a b) (hac : a.Perm c) (hbd : b.Perm d)
    (hb : (keys b).Nodup) : Partnered R c d := by
  intro p hp
  obtain ⟨y, hy, hR⟩ := h p (hac.mem_iff.2 hp)
  exact ⟨y, get?_of_perm hbd.symm ((hbd.map Prod.fst).nodup_iff.1 hb) hy, hR⟩

theorem forall₂_of_partnered (hkeys : keys a = keys b) (hb : (keys b).Nodup) (h : Partnered R a b) :
    List.Forall₂ (fun p q => p.1 = q.1 ∧ R p.2 q.2) a b := by
  rw [List.forall₂_iff_get]
  refine ⟨by simpa [keys] using congrArg List.length hkeys, fun i hi hi' => ?_⟩
  have hkey : a[i].1 = b[i].1 := by
    have hget := congrArg (fun l => l[i]?) hkeys
    simpa [keys, hi, hi'] using hget
  obtain ⟨y, hy, hR⟩ := h _ (List.getElem_mem hi)
  rw [hkey, get?_of_mem hb (List.getElem_mem hi')] at hy
  cases hy
  exact ⟨hkey, hR⟩

/-- Maps of one size whose entries are partners are those that agree entry by entry once sorted. -/
theorem partnered_iff_sorted (ha : (keys a).Nodup) (hb : (keys b).Nodup) :
    a.length = b.length ∧ Partnered R a b ↔
      List.Forall₂ (fun p q => p.1 = q.1 ∧ R p.2 q.2) (sorted a) (sorted b) := by
  have hb' : (keys (sorted b)).Nodup := (keys_sorted_perm b).nodup_iff.2 hb
  constructor
  · rintro ⟨hlength, h⟩
    exact forall₂_of_partnered (keys_sorted_eq (h.keys_perm ha hlength)) hb'
      (h.perm (sorted_perm a).symm (sorted_perm b).symm hb)
  · intro h
    refine ⟨?_, (partnered_of_forall₂ hb' h).perm (sorted_perm a) (sorted_perm b) hb'⟩
    simpa [(sorted_perm a).length_eq, (sorted_perm b).length_eq] using h.length_eq

end Entries

namespace Value

mutual

/-- The value with the entries of all maps in it in the order of their keys. -/
def inKeyOrder : Value → Value
  | .list items => .list (inKeyOrderItems items)
  | .map es => .map (Entries.sorted (inKeyOrderEntries es))
  | v => v
termination_by structural v => v

def inKeyOrderItems : List Value → List Value
  | [] => []
  | v :: rest => inKeyOrder v :: inKeyOrderItems rest
termination_by structural items => items

def inKeyOrderEntries : List (String × Value) → List (String × Value)
  | [] => []
  | (k, v) :: rest => (k, inKeyOrder v) :: inKeyOrderEntries rest
termination_by structural es => es

end

theorem inKeyOrderItems_eq (items : List Value) : inKeyOrderItems items = items.map inKeyOrder := by
  induction items with
  | nil => rfl
  | cons v rest ih => rw [inKeyOrderItems, ih, List.map_cons]

theorem inKeyOrderEntries_eq (es : Entries Value) :
    inKeyOrderEntries es = es.map fun p => (p.1, p.2.inKeyOrder) := by
  induction es with
  | nil => rfl
  | cons p rest ih => rw [inKeyOrderEntries, ih, List.map_cons]

theorem inKeyOrder_map (es : Entries Value) :
    (map es).inKeyOrder = .map ((Entries.sorted es).map fun p => (p.1, p.2.inKeyOrder)) := by
  rw [inKeyOrder, inKeyOrderEntries_eq, Entries.sorted, Entries.sorted, List.map_mergeSort]
  intros
  rfl

variable {a b : Value}

theorem same_scalar (ha : a.isArray = false) : a.same b = a.inKeyOrder.identical b.inKeyOrder := by
  cases a with
  | list | map => cases ha
  | _ => cases b <;> rfl

/-- Values are the same data exactly when they are identical in the order of the keys. -/
theorem same_eq_identical (ha : DistinctKeys a) (hb : DistinctKeys b) :
    a.same b = a.inKeyOrder.identical b.inKeyOrder := by
  induction ha generalizing b with
  | scalar h => exact same_scalar h
  | @list items _ ih =>
    cases hb with
    | scalar hb => cases b <;> first | rfl | cases hb
    | map _ _ => rw [inKeyOrder_map]; rfl
    | @list others hb =>
      rw [Bool.eq_iff_iff]
      refine sameItems_iff.trans (.trans ?_ identicalItems_iff.symm)
      rw [inKeyOrderItems_eq, inKeyOrderItems_eq, List.forall₂_map_left_iff,
        List.forall₂_map_right_iff, List.forall₂_iff_get, List.forall₂_iff_get]
      refine and_congr_right fun _ => forall_congr' fun i => forall₂_congr fun hi hi' => ?_
      rw [ih _ (List.get_mem ..) (hb _ (List.get_mem ..))]
  | @map es hkeys _ ih =>
    cases hb with
    | scalar hb => cases b <;> first | rfl | cases hb
    | list _ => rw [inKeyOrder_map]; rfl
    | @map others hkeys' hb =>
      -- Entries have partners whatever their order is, and these are equal by induction.
      have hsame : (map es).same (map others) = true ↔ es.length = others.length ∧
          Entries.Partnered (fun x y => x.inKeyOrder.identical y.inKeyOrder = true) es others := by
        refine Bool.and_eq_true_iff.trans (and_congr decide_eq_true_iff (sameEntries_iff.trans ?_))
        exact Entries.partnered_congr fun p hp q hq => by rw [ih p hp (hb q hq)]
      rw [Bool.eq_iff_iff, hsame, Entries.partnered_iff_sorted hkeys hkeys', inKeyOrder_map,
        inKeyOrder_map]
      refine .trans ?_ identicalEntries_iff.symm
      rw [List.forall₂_map_left_iff, List.forall₂_map_right_iff]

theorem same_of_identical (ha : DistinctKeys a) (hb : DistinctKeys b) (h : a.identical b = true) :
    a.same b = true := by
  refine of_identical (R := fun a b => a.same b = true) (fun {a b} ha h => ?_) sameItems_iff.2
    (fun hlength hpartners => Bool.and_eq_true_iff.2
      ⟨decide_eq_true hlength, sameEntries_iff.2 hpartners⟩) ha hb h
  cases a with
  | list | map => cases ha
  | _ => cases b <;> exact h

/-- No map in the value has two entries or more, so there is nothing to put in order. -/
inductive FixedOrder : Value → Prop where
  | scalar {v : Value} (h : v.isArray = false) : FixedOrder v
  | list {items : List Value} (h : ∀ v ∈ items, FixedOrder v) : FixedOrder (.list items)
  | map {es : Entries Value} (hsize : es.length ≤ 1) (h : ∀ p ∈ es, FixedOrder p.2) :
      FixedOrder (.map es)

theorem identical_of_same (hb : FixedOrder b) (h : a.same b = true) : a.identical b = true := by
  induction hb generalizing a with
  | @scalar b hb => cases a <;> cases b <;> first | exact h | cases hb
  | @list others _ ih =>
    cases a with
    | list items =>
      refine identicalItems_iff.2 ?_
      have hitems := sameItems_iff.1 h
      rw [List.forall₂_iff_get] at hitems ⊢
      exact ⟨hitems.1, fun i hi hi' => ih _ (List.get_mem ..) (hitems.2 i hi hi')⟩
    | _ => cases h
  | @map others hsize _ ih =>
    cases a with
    | map es =>
      obtain ⟨hlength, hentries⟩ := Bool.and_eq_true_iff.1 h
      have hlength := of_decide_eq_true hlength
      match es, others, hlength with
      | [], [], _ => rfl
      | [p], [q], _ =>
        obtain ⟨y, hy, hsame⟩ := sameEntries_iff.1 hentries p List.mem_cons_self
        have hq := List.mem_singleton.1 (Entries.mem_of_get? hy)
        rw [← hq] at ih
        refine identicalEntries_iff.2 (.cons ⟨?_, ?_⟩ .nil)
        · rw [← hq]
        · rw [← hq]
          exact ih _ List.mem_cons_self hsame
      | _ :: _ :: _, _ :: _ :: _, _ => exact absurd hsize (by simp)
    | _ => cases h

end Value

end ViewTemplate
