import ViewTemplate.Proofs.Value.ArrayEntries

namespace ViewTemplate.Value

/-- The key behind which no key comes. -/
def lastKey : String := toString Int64.maxValue.toInt

variable {es : Entries Value} {c v : Value}

theorem exists_nextKey (es : Entries Value) :
    ∃ i : Int, nextKey es = toString i ∧ Int64.minValue.toInt ≤ i ∧ i ≤ Int64.maxValue.toInt ∧
      ∀ k ∈ Entries.keys es, ∀ n, (Decimal.readWord? k.toList).map Int64.toInt = some n →
        n < i ∨ i = Int64.maxValue.toInt := by
  have hmin : Int64.minValue.toInt ≤ 0 := by decide
  have hmax : 0 ≤ Int64.maxValue.toInt := by decide
  unfold nextKey
  split
  · -- one more than the greatest reading `n`, as long as that is no more than the last integer
    rename_i n hn
    obtain ⟨hmem, hgreatest⟩ := List.max?_eq_some_iff.mp hn
    obtain ⟨k, -, hk⟩ := List.mem_filterMap.mp hmem
    obtain ⟨word, -, rfl⟩ := Option.map_eq_some_iff.mp hk
    have hword := word.minValue_le_toInt
    refine ⟨_, rfl, by omega, by omega, fun k' hk' n' hn' => ?_⟩
    have hle := hgreatest n' (List.mem_filterMap.mpr ⟨k', hk', hn'⟩)
    omega
  · rename_i hnone
    refine ⟨0, rfl, hmin, hmax, fun k hk n hn => ?_⟩
    have hmem : n ∈ (Entries.keys es).filterMap
        fun k => (Decimal.readWord? k.toList).map (·.toInt) :=
      List.mem_filterMap.mpr ⟨k, hk, hn⟩
    rw [List.max?_eq_none_iff.mp hnone] at hmem
    cases hmem

theorem nextKey_not_mem (h : lastKey ∉ Entries.keys es) : nextKey es ∉ Entries.keys es := by
  obtain ⟨i, hi, hmin, hmax, habove⟩ := exists_nextKey es
  intro hmem
  rw [hi] at hmem
  -- a key that is the text of `i` would read as `i`
  obtain hlt | hlast := habove _ hmem i (Decimal.readWord?_toString_int hmin hmax)
  · omega
  · rw [hlast] at hmem
    exact h hmem

theorem nextKey_of_mem (h : lastKey ∈ Entries.keys es) : nextKey es = lastKey := by
  obtain ⟨i, hi, hmin, hmax, habove⟩ := exists_nextKey es
  have hle : Int64.minValue.toInt ≤ Int64.maxValue.toInt := by decide
  obtain hlt | hlast := habove _ h _ (Decimal.readWord?_toString_int hle (Int.le_refl _))
  · omega
  · rw [hi, hlast]
    rfl

/-- What an append of `v` makes of the array `c`. -/
structure Appended (c v d : Value) : Prop where
  /-- A new entry comes behind the others. -/
  grows : (∀ es, c = .map es → lastKey ∉ Entries.keys es) →
    ∃ k, k ∉ Entries.keys c.entries ∧ d.entries = c.entries ++ [(k, v)]
  /-- A map that has the last key keeps its keys, and the value goes under that one. -/
  full : ∀ es, c = .map es → lastKey ∈ Entries.keys es → d = .map (Entries.insert es lastKey v)

theorem modifyItem_append (items : List Value) {f : Value → Except ScalarAsArray Value}
    (hf : f .null = .ok v) : modifyItem items none f = .ok (.list (items ++ [v])) :=
  modifyItem_of_end rfl hf

theorem grows_list (items : List Value) (v : Value) :
    ∃ k, k ∉ Entries.keys (listEntries items) ∧
      listEntries (items ++ [v]) = listEntries items ++ [(k, v)] := by
  have hnew : toString items.length ∉ Entries.keys (listEntries items) := by
    rw [mem_keys_listEntries]
    exact Nat.lt_irrefl _
  refine ⟨_, hnew, ?_⟩
  rw [← insert_listEntries_length, Entries.insert_of_not_mem hnew]

theorem exists_put_none (hc : c.holdsEntries) (v : Value) :
    ∃ d, c.put none v = .ok d ∧ c.Appended v d := by
  cases c with
  | null =>
    refine ⟨_, modifyItem_append [] rfl, fun _ => grows_list [] v, fun _ h => ?_⟩
    cases h
  | list items =>
    refine ⟨_, modifyItem_append items rfl, fun _ => grows_list items v, fun _ h => ?_⟩
    cases h
  | map es =>
    have hstore : modifyEntry es none (store v []) =
        .ok (.map (Entries.insert es (nextKey es) v)) :=
      modifyEntry_of_ok rfl
    refine ⟨_, hstore, fun h => ?_, fun es' h hfull => ?_⟩
    · have hnew := nextKey_not_mem (h es rfl)
      exact ⟨_, hnew, Entries.insert_of_not_mem hnew v⟩
    · cases h
      rw [nextKey_of_mem hfull]
  | _ => exact hc.elim

end ViewTemplate.Value
