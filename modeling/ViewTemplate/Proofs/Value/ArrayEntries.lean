import ViewTemplate.Proofs.Decimal.Canonical

namespace ViewTemplate.Entries

variable {α : Type}

theorem insert_of_not_mem {m : Entries α} {key : String} (h : key ∉ keys m) (v : α) :
    insert m key v = m ++ [(key, v)] := by
  induction m with
  | nil => rfl
  | cons p rest ih =>
    obtain ⟨k, old⟩ := p
    simp only [keys, List.map_cons, List.mem_cons, not_or] at h
    rw [insert, if_neg (Ne.symm h.1), ih h.2]
    rfl

theorem erase_of_not_mem {m : Entries α} {key : String} (h : key ∉ keys m) : erase m key = m := by
  rw [erase, List.filter_eq_self]
  intro p hp
  have : p.1 ≠ key := fun he => h (he ▸ List.mem_map_of_mem hp)
  simpa using this

theorem mem_of_get? {m : Entries α} {key : String} {v : α} (h : get? m key = some v) :
    (key, v) ∈ m := by
  induction m with
  | nil => cases h
  | cons p rest ih =>
    obtain ⟨k, old⟩ := p
    rw [get?] at h
    split at h
    · rename_i hk
      cases h
      rw [hk]
      exact List.mem_cons_self
    · exact List.mem_cons_of_mem _ (ih h)

end ViewTemplate.Entries

namespace ViewTemplate.Value

theorem toString_nat_inj {m n : Nat} : toString m = toString n ↔ m = n := by
  refine ⟨fun h => ?_, fun h => h ▸ rfl⟩
  have hd : Nat.toDigits 10 m = Nat.toDigits 10 n := by
    simpa [Nat.toString_eq_repr, Nat.toList_repr] using congrArg String.toList h
  rw [← Decimal.natOfDigits_toDigits m, hd, Decimal.natOfDigits_toDigits]

theorem empty_ne_toString (i : Nat) : "" ≠ toString i := by
  rw [Nat.toString_eq_repr]
  exact Nat.repr_ne_empty.symm

theorem ne_toString_of_mem {s : String} {c : Char} (hmem : c ∈ s.toList) (hc : c.isDigit = false)
    (i : Nat) : s ≠ toString i := by
  rintro rfl
  rw [Nat.toString_eq_repr, Nat.toList_repr] at hmem
  have := Nat.isDigit_of_mem_toDigits (by decide) (by decide) hmem
  rw [hc] at this
  exact Bool.false_ne_true this

theorem toString_int_eq_toString_nat {n : Int} {i : Nat} (h : toString n = toString i) :
    n = (i : Int) := by
  cases n with
  | ofNat j => exact congrArg Int.ofNat (toString_nat_inj.mp h)
  | negSucc j =>
    -- a negative number has a sign in front
    refine absurd h (ne_toString_of_mem (c := '-') ?_ (by decide) i)
    rw [Int.toString_eq_repr, Int.repr_eq_if, if_neg (Int.not_le.mpr (Int.negSucc_lt_zero j)),
      String.toList_append]
    exact List.mem_cons_self

/-- A list from position `start` on, as entries. -/
def entriesFrom (start : Nat) (items : List Value) : Entries Value :=
  (items.zipIdx start).map fun (v, i) => (toString i, v)

theorem listEntries_eq (items : List Value) : listEntries items = entriesFrom 0 items := rfl

theorem entriesFrom_cons (start : Nat) (v : Value) (items : List Value) :
    entriesFrom start (v :: items) = (toString start, v) :: entriesFrom (start + 1) items := rfl

theorem entriesFrom_append (start : Nat) (items more : List Value) :
    entriesFrom start (items ++ more) =
      entriesFrom start items ++ entriesFrom (start + items.length) more := by
  rw [entriesFrom, List.zipIdx_append, List.map_append, Nat.add_comm start]
  rfl

theorem keys_entriesFrom (start : Nat) (items : List Value) :
    Entries.keys (entriesFrom start items) =
      (List.range' start items.length).map toString := by
  induction items generalizing start with
  | nil => rfl
  | cons v items ih =>
    rw [entriesFrom_cons, List.length_cons, List.range'_succ, List.map_cons, ← ih]
    rfl

@[simp] theorem keys_listEntries (items : List Value) :
    Entries.keys (listEntries items) = (List.range items.length).map toString := by
  rw [listEntries_eq, keys_entriesFrom, List.range_eq_range']

theorem mem_keys_listEntries {items : List Value} {n : Nat} :
    toString n ∈ Entries.keys (listEntries items) ↔ n < items.length := by
  simp only [keys_listEntries, List.mem_map, List.mem_range, toString_nat_inj]
  exact ⟨fun ⟨i, hi, he⟩ => he ▸ hi, fun h => ⟨n, h, rfl⟩⟩

theorem get?_entriesFrom (start : Nat) (items : List Value) (i : Nat) :
    Entries.get? (entriesFrom start items) (toString (start + i)) = items[i]? := by
  induction items generalizing start i with
  | nil => rfl
  | cons v items ih =>
    rw [entriesFrom_cons, Entries.get?]
    cases i with
    | zero => simp
    | succ i =>
      rw [if_neg (by rw [toString_nat_inj]; omega), List.getElem?_cons_succ,
        show start + (i + 1) = start + 1 + i by omega, ih]

@[simp] theorem get?_listEntries (items : List Value) (i : Nat) :
    Entries.get? (listEntries items) (toString i) = items[i]? := by
  rw [listEntries_eq, ← get?_entriesFrom 0, Nat.zero_add]

theorem insert_entriesFrom (start : Nat) {items : List Value} {i : Nat} (h : i < items.length)
    (v : Value) :
    Entries.insert (entriesFrom start items) (toString (start + i)) v =
      entriesFrom start (items.set i v) := by
  induction items generalizing start i with
  | nil => simp at h
  | cons old items ih =>
    rw [entriesFrom_cons, Entries.insert]
    cases i with
    | zero => simp [entriesFrom_cons]
    | succ i =>
      rw [if_neg (by rw [toString_nat_inj]; omega), List.set_cons_succ, entriesFrom_cons,
        show start + (i + 1) = start + 1 + i by omega, ih (start + 1) (by simpa using h)]

theorem insert_listEntries {items : List Value} {i : Nat} (h : i < items.length) (v : Value) :
    Entries.insert (listEntries items) (toString i) v = listEntries (items.set i v) := by
  rw [listEntries_eq, listEntries_eq, ← insert_entriesFrom 0 h, Nat.zero_add]

theorem insert_listEntries_length (items : List Value) (v : Value) :
    Entries.insert (listEntries items) (toString items.length) v = listEntries (items ++ [v]) := by
  rw [Entries.insert_of_not_mem (by rw [mem_keys_listEntries]; exact Nat.lt_irrefl _),
    listEntries_eq, listEntries_eq, entriesFrom_append, Nat.zero_add]
  rfl

/-- Null counts as an empty array. -/
def holdsEntries : Value → Prop
  | .null | .list _ | .map _ => True
  | _ => False

def keyText (es : Entries Value) : Option Value → String
  | some key => key.key
  | none => nextKey es

/-- The list position that a write goes to; without a key it is the one behind the last. -/
def listPosition (items : List Value) : Option Value → Option Nat
  | some key => key.position?
  | none => some items.length

/-- A key names a position of a list only if its text is that of the position. The truth value
`false` does not: it names the first position and has an empty text. -/
def namesItsText (key : Value) : Prop := ∀ i, key.position? = some i → key.key = toString i

theorem namesItsText_of_ne {key : Value} (h : key ≠ .bool false) : key.namesItsText := by
  intro i hi
  cases key with
  | int n =>
    simp only [position?] at hi
    by_cases hn : 0 ≤ n.toInt
    · rw [if_pos hn] at hi
      cases hi
      change toString n.toInt = _
      conv_lhs => rw [← Int.toNat_of_nonneg hn]
      rfl
    · rw [if_neg hn] at hi
      cases hi
  | bool b =>
    cases b with
    | false => exact absurd rfl h
    | true =>
      cases hi
      rfl
  | string s => exact (indexText?_eq_some_iff.mp hi).1
  | _ => cases hi

/-- A key whose text is that of a position names the position, unless it is a double. -/
theorem position?_of_key {key : Value} {i : Nat} (hfloat : ∀ x, key ≠ .float x)
    (h : key.key = toString i) (hi : i < 2 ^ 63) : key.position? = some i := by
  cases key with
  | null => exact absurd h (empty_ne_toString i)
  | bool b =>
    cases b with
    | false => exact absurd h (empty_ne_toString i)
    | true =>
      have : 1 = i := toString_nat_inj.mp h
      rw [← this]
      rfl
  | int n =>
    have hn : n.toInt = (i : Int) := toString_int_eq_toString_nat h
    simp [position?, hn]
  | float x => exact absurd rfl (hfloat x)
  | string s =>
    have : UInt64.size = 2 ^ 64 := rfl
    exact indexText?_eq_some_iff.mpr ⟨h, by omega⟩
  | list | map =>
    have hname : 'A' ∈ "Array".toList := by decide
    exact absurd h (ne_toString_of_mem hname (by decide) i)

section Write

variable {f : Value → Except ScalarAsArray Value} {x : Value}

theorem modifyEntry_of_ok {es : Entries Value} {key : Option Value}
    (hx : f ((Entries.get? es (keyText es key)).getD .null) = .ok x) :
    modifyEntry es key f = .ok (.map (Entries.insert es (keyText es key) x)) := by
  cases key with
  | none =>
    simp only [keyText] at hx
    simp only [modifyEntry, hx]
    rfl
  | some key =>
    simp only [keyText] at hx
    simp only [modifyEntry, hx]
    rfl

theorem modifyItem_of_no_position {items : List Value} {key : Option Value}
    (hp : listPosition items key = none) :
    modifyItem items key f = modifyEntry (listEntries items) key f := by
  cases key with
  | none => cases hp
  | some key =>
    simp only [listPosition] at hp
    simp only [modifyItem, hp]

theorem modifyItem_of_found {items : List Value} {key : Option Value} {i : Nat} {old : Value}
    (hp : listPosition items key = some i) (hi : items[i]? = some old) (hx : f old = .ok x) :
    modifyItem items key f = .ok (.list (items.set i x)) := by
  cases key with
  | none =>
    cases hp
    simp only [modifyItem, hi, hx]
    rfl
  | some key =>
    rw [listPosition] at hp
    simp only [modifyItem, hp, hi, hx]
    rfl

theorem modifyItem_of_end {items : List Value} {key : Option Value}
    (hp : listPosition items key = some items.length) (hx : f .null = .ok x) :
    modifyItem items key f = .ok (.list (items ++ [x])) := by
  have hi : items[items.length]? = none := List.getElem?_eq_none (Nat.le_refl _)
  cases key with
  | none =>
    simp only [modifyItem, hi, if_true, hx]
    rfl
  | some key =>
    rw [listPosition] at hp
    simp only [modifyItem, hp, hi, if_true, hx]
    rfl

theorem modifyItem_of_beyond {items : List Value} {key : Option Value} {i : Nat}
    (hp : listPosition items key = some i) (hi : items[i]? = none) (hl : i ≠ items.length) :
    modifyItem items key f = modifyEntry (listEntries items) key f := by
  cases key with
  | none => exact absurd (Option.some.inj hp).symm hl
  | some key =>
    rw [listPosition] at hp
    simp only [modifyItem, hp, hi, if_neg hl]

theorem modifyItem_entries {items : List Value} {key : Option Value}
    (hkey : ∀ i, listPosition items key = some i → keyText (listEntries items) key = toString i)
    (hx : f ((Entries.get? (listEntries items) (keyText (listEntries items) key)).getD .null) =
      .ok x) :
    ∃ d, modifyItem items key f = .ok d ∧ d.holdsEntries ∧
      d.entries = Entries.insert (listEntries items) (keyText (listEntries items) key) x := by
  have hmap := modifyEntry_of_ok hx
  cases hp : listPosition items key with
  | none => exact ⟨_, (modifyItem_of_no_position hp).trans hmap, trivial, rfl⟩
  | some i =>
    rw [hkey i hp, get?_listEntries] at hx
    cases hi : items[i]? with
    | some old =>
      rw [hi, Option.getD_some] at hx
      refine ⟨.list (items.set i x), modifyItem_of_found hp hi hx, trivial, ?_⟩
      rw [hkey i hp, insert_listEntries (List.getElem?_eq_some_iff.mp hi).1]
      rfl
    | none =>
      rw [hi, Option.getD_none] at hx
      by_cases hl : i = items.length
      · subst hl
        refine ⟨.list (items ++ [x]), modifyItem_of_end hp hx, trivial, ?_⟩
        rw [hkey _ hp, insert_listEntries_length]
        rfl
      · exact ⟨.map _, (modifyItem_of_beyond hp hi hl).trans hmap, trivial, rfl⟩

end Write

theorem readings_listEntries {items : List Value} (h : items.length ≤ 2 ^ 63) :
    ((Entries.keys (listEntries items)).filterMap fun k =>
      (Decimal.readWord? k.toList).map (·.toInt)) = (List.range items.length).map Int.ofNat := by
  rw [keys_listEntries, List.filterMap_map, ← List.filterMap_eq_map]
  apply List.filterMap_congr
  intro i hi
  have hmax : Int64.maxValue.toInt = 2 ^ 63 - 1 := by decide
  exact Decimal.readWord?_toString (by rw [List.mem_range] at hi; omega)

theorem nextKey_listEntries {items : List Value} (h : items.length < 2 ^ 63) :
    nextKey (listEntries items) = toString items.length := by
  rw [nextKey, readings_listEntries (Nat.le_of_lt h)]
  cases hl : items.length with
  | zero => rfl
  | succ n =>
    have hmax : ((List.range (n + 1)).map Int.ofNat).max? = some (n : Int) := by
      rw [List.max?_eq_some_iff]
      refine ⟨List.mem_map.mpr ⟨n, by simp, rfl⟩, ?_⟩
      intro i hi
      obtain ⟨j, hj, rfl⟩ := List.mem_map.mp hi
      rw [List.mem_range] at hj
      simp only [Int.ofNat_eq_natCast]
      omega
    have hmin : min ((n : Int) + 1) Int64.maxValue.toInt = ((n + 1 : Nat) : Int) := by
      have : Int64.maxValue.toInt = 2 ^ 63 - 1 := by decide
      omega
    rw [hmax]
    simp only [hmin]
    rfl

/-- A write under a key sets the text of the key among the entries, and an append the next key. -/
theorem modify_entries {c : Value} {key : Option Value} {f : Value → Except ScalarAsArray Value}
    {x : Value} (hc : c.holdsEntries) (hkey : ∀ k, key = some k → k.namesItsText)
    (hl : c.entries.length < 2 ^ 63)
    (hx : f ((Entries.get? c.entries (keyText c.entries key)).getD .null) = .ok x) :
    ∃ d, c.modify key f = .ok d ∧ d.holdsEntries ∧
      d.entries = Entries.insert c.entries (keyText c.entries key) x := by
  have hname : ∀ items : List Value, items.length < 2 ^ 63 → ∀ i,
      listPosition items key = some i → keyText (listEntries items) key = toString i := by
    intro items hitems i hi
    cases key with
    | none =>
      cases hi
      exact nextKey_listEntries hitems
    | some k => exact hkey k rfl i hi
  cases c with
  | null => exact modifyItem_entries (hname [] (by decide)) hx
  | list items =>
    exact modifyItem_entries (hname items (by simpa [entries, listEntries] using hl)) hx
  | map es => exact ⟨_, modifyEntry_of_ok hx, trivial, rfl⟩
  | _ => exact hc.elim

theorem removeKey_of_element {items : List Value} {key : Value} {i : Nat}
    (hp : key.position? = some i) (hi : i < items.length) :
    (list items).removeKey key = .map (Entries.erase (listEntries items) key.key) := by
  simp only [removeKey, hp, if_pos hi]

theorem removeKey_of_no_element {items : List Value} {key : Value}
    (h : ¬∃ i, key.position? = some i ∧ i < items.length) :
    (list items).removeKey key = .list items := by
  unfold removeKey
  cases hp : key.position? with
  | none => rfl
  | some i => exact if_neg fun hlt => h ⟨i, hp, hlt⟩

/-- Removing a key takes it from the entries, also where a list becomes a map. -/
theorem removeKey_entries {c : Value} (hc : c.holdsEntries) (key : Value)
    (hkey : ∀ i, key.key = toString i → i < c.entries.length → key.position? = some i) :
    (c.removeKey key).holdsEntries ∧
      (c.removeKey key).entries = Entries.erase c.entries key.key := by
  cases c with
  | null => exact ⟨trivial, rfl⟩
  | map es => exact ⟨trivial, rfl⟩
  | list items =>
    by_cases hi : ∃ i, key.position? = some i ∧ i < items.length
    · obtain ⟨i, hp, hlt⟩ := hi
      rw [removeKey_of_element hp hlt]
      exact ⟨trivial, rfl⟩
    · rw [removeKey_of_no_element hi]
      refine ⟨trivial, (Entries.erase_of_not_mem ?_).symm⟩
      intro hmem
      rw [entries, keys_listEntries, List.mem_map] at hmem
      obtain ⟨i, hlt, he⟩ := hmem
      rw [List.mem_range] at hlt
      exact hi ⟨i, hkey i he.symm (by simpa [entries, listEntries] using hlt), hlt⟩
  | _ => exact hc.elim

end ViewTemplate.Value
