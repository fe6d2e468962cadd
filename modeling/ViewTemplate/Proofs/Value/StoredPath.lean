import ViewTemplate.Proofs.Value.Keys

namespace ViewTemplate.Value

/-- The lists in a value have fewer than `2 ^ 63` elements. -/
inductive ShortLists : Value → Prop
  | intro {c : Value} (hlist : ∀ items, c = .list items → items.length < 2 ^ 63)
    (h : ∀ p ∈ c.entries, p.2.ShortLists) : ShortLists c

/-- The element that a write under a key comes upon. It is the one that is read, but a double stands
for the position that it is cut to. -/
def found? (c key : Value) : Option Value :=
  match c, key with
  | .list items, .float x => Entries.get? (listEntries items) (Value.float x).key
  | c, key => c.element? key

variable {c key old v : Value} {items : List Value} {i : Nat}

theorem found?_of_not_float (h : ∀ x, key ≠ .float x) : c.found? key = c.element? key := by
  unfold found?
  split
  · rename_i x
    exact absurd rfl (h x)
  · rfl

theorem found?_null (key : Value) : null.found? key = none := rfl

theorem get?_of_found? (h : c.found? key = some old) :
    ∃ k, Entries.get? c.entries k = some old := by
  unfold found? at h
  split at h
  · exact ⟨_, h⟩
  · rw [element?_eq_get?] at h
    obtain ⟨k, -, hk⟩ := Option.bind_eq_some_iff.mp h
    exact ⟨k, hk⟩

theorem ShortLists.of_found? (hc : c.ShortLists) (h : c.found? key = some old) :
    old.ShortLists := by
  obtain ⟨k, hk⟩ := get?_of_found? h
  cases hc with
  | intro _ hentries => exact hentries _ (Entries.mem_of_get? hk)

theorem found?_of_position? (hp : key.position? = some i) (hi : items[i]? = some old)
    (hlength : items.length < 2 ^ 63) : (list items).found? key = some old := by
  have hlt : i < items.length := (List.getElem?_eq_some_iff.mp hi).1
  have hfloat : ∀ x, key ≠ .float x := by
    rintro x rfl
    cases hp
  rw [found?_of_not_float hfloat, element?_of_position? items hp (by omega)]
  exact hi

theorem found?_of_entry (h : Entries.get? (listEntries items) key.key = some old)
    (hlength : items.length < 2 ^ 63) : (list items).found? key = some old := by
  by_cases hfloat : ∀ x, key ≠ .float x
  · have hmem : key.key ∈ Entries.keys (listEntries items) :=
      List.mem_map_of_mem (Entries.mem_of_get? h)
    rw [keys_listEntries, List.mem_map] at hmem
    obtain ⟨j, hj, htext⟩ := hmem
    rw [List.mem_range] at hj
    rw [← htext, get?_listEntries] at h
    exact found?_of_position? (position?_of_key hfloat htext.symm (by omega)) h hlength
  · push Not at hfloat
    obtain ⟨x, rfl⟩ := hfloat
    exact h

section Write

/-- How a write under a key changes an array: it replaces what it comes upon, which is null when it
comes upon nothing, and what it puts there is read under the key. -/
def WritesAt (c key : Value)
    (write : (Value → Except ScalarAsArray Value) → Except ScalarAsArray Value) : Prop :=
  ∃ old put, (old = .null ∨ c.found? key = some old) ∧ (∀ x, (put x).element? key = some x) ∧
    ∀ f, write f = (f old).map put

theorem writesAt_modifyEntry {es : Entries Value}
    (h : ∀ old, Entries.get? es key.key = some old → c.found? key = some old) :
    c.WritesAt key (modifyEntry es (some key)) := by
  refine ⟨(Entries.get? es key.key).getD .null, fun x => .map (Entries.insert es key.key x), ?_,
    fun x => Entries.get?_insert_self es key.key x, fun f => ?_⟩
  · cases hold : Entries.get? es key.key with
    | none => exact .inl rfl
    | some old => exact .inr (h old hold)
  · rw [modifyEntry]
    cases f ((Entries.get? es key.key).getD .null) <;> rfl

theorem writesAt_modifyItem (hlength : items.length < 2 ^ 63) :
    (list items).WritesAt key (modifyItem items (some key)) := by
  have hmap : (list items).WritesAt key (modifyEntry (listEntries items) (some key)) :=
    writesAt_modifyEntry fun old h => found?_of_entry h hlength
  cases hp : key.position? with
  | none =>
    have hentry : modifyItem items (some key) = modifyEntry (listEntries items) (some key) :=
      funext fun _ => modifyItem_of_no_position hp
    rwa [hentry]
  | some i =>
    -- a list that stays one is read at the position that was written
    cases hi : items[i]? with
    | some old =>
      have hlt : i < items.length := (List.getElem?_eq_some_iff.mp hi).1
      refine ⟨old, fun x => .list (items.set i x), .inr (found?_of_position? hp hi hlength),
        fun x => ?_, fun f => ?_⟩
      · rw [element?_of_position? _ hp (by omega), List.getElem?_set_self hlt]
      · simp only [modifyItem, hp, hi]
        cases f old <;> rfl
    | none =>
      by_cases hend : i = items.length
      · refine ⟨.null, fun x => .list (items ++ [x]), .inl rfl, fun x => ?_, fun f => ?_⟩
        · rw [element?_of_position? _ hp (by omega), hend, List.getElem?_concat_length]
        · simp only [modifyItem, hp, hi, if_pos hend]
          cases f .null <;> rfl
      · have hentry : modifyItem items (some key) = modifyEntry (listEntries items) (some key) :=
          funext fun _ => modifyItem_of_beyond hp hi hend
        rwa [hentry]

/-- One step of a path. -/
theorem writesAt_modify (hc : c.holdsEntries) (hshort : c.ShortLists) (key : Value) :
    c.WritesAt key (c.modify (some key)) := by
  cases c with
  | null =>
    have hempty : (list []).WritesAt key (modifyItem [] (some key)) :=
      writesAt_modifyItem (by decide)
    obtain ⟨old, put, hold, hput, hwrite⟩ := hempty
    refine ⟨old, put, .inl ?_, hput, hwrite⟩
    obtain hnull | hfound := hold
    · exact hnull
    · obtain ⟨k, hk⟩ := get?_of_found? hfound
      cases hk
  | list items =>
    cases hshort with
    | intro hlist _ => exact writesAt_modifyItem (hlist items rfl)
  | map es => exact writesAt_modifyEntry fun old h => h
  | _ => exact hc.elim

theorem eq_null_of_found? : ∀ {keys : List Value} {x : Value},
    keys.foldlM found? null = some x → x = .null
  | [], _, h => (Option.some.inj h).symm
  | key :: keys, x, h => by
    rw [List.foldlM_cons, found?_null] at h
    cases h

/-- Storing below keys either succeeds, and the value is read along them, or a value that is no
array stands under the first of them. -/
theorem store_keys (v : Value) (keys : List Value) (hc : c.ShortLists) :
    (∃ d, store v (keys.map some) c = .ok d ∧ keys.foldlM element? d = some v) ∨
      ∃ before key after x, keys = before ++ key :: after ∧ before.foldlM found? c = some x ∧
        ¬x.holdsEntries ∧ store v (keys.map some) c = .error ⟨x.typeName⟩ := by
  -- a write goes on in what it comes upon, so the array varies with the keys
  induction keys generalizing c with
  | nil => exact .inl ⟨v, rfl, rfl⟩
  | cons key keys ih =>
    by_cases harray : c.holdsEntries
    · obtain ⟨old, put, hold, hput, hwrite⟩ := writesAt_modify harray hc key
      have hstore : store v ((key :: keys).map some) c = (store v (keys.map some) old).map put :=
        hwrite _
      have hshort : old.ShortLists := by
        obtain rfl | hfound := hold
        · exact .intro (fun _ h => nomatch h) (List.forall_mem_nil _)
        · exact hc.of_found? hfound
      obtain ⟨d, hd, hread⟩ | ⟨before, k, after, x, hkeys, hx, hscalar, herror⟩ := ih hshort
      · left
        refine ⟨put d, by rw [hstore, hd]; rfl, ?_⟩
        rw [List.foldlM_cons, hput]
        exact hread
      · right
        refine ⟨key :: before, k, after, x, by rw [hkeys]; rfl, ?_,
          hscalar, by rw [hstore, herror]; rfl⟩
        obtain rfl | hfound := hold
        · -- below null nothing stands in the way
          rw [eq_null_of_found? hx] at hscalar
          exact absurd trivial hscalar
        · rw [List.foldlM_cons, hfound]
          exact hx
    · right
      refine ⟨[], key, keys, c, rfl, rfl, harray, ?_⟩
      cases c with
      | null | list | map => exact absurd trivial harray
      | _ => rfl

end Write

end ViewTemplate.Value
