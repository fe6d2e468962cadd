import ViewTemplate.Proofs.Run.Step
import ViewTemplate.Proofs.Value.ArrayEntries

namespace ViewTemplate

/-- A map that remembers the order in which its keys came. -/
structure OrderedMap where
  order : List String
  value : String → Value

namespace OrderedMap

def empty : OrderedMap := ⟨[], fun _ => .null⟩

def entries (m : OrderedMap) : List (String × Value) := m.order.map fun k => (k, m.value k)

/-- A key that is there keeps its place; a new one comes last. -/
def set (m : OrderedMap) (k : String) (v : Value) : OrderedMap where
  order := if k ∈ m.order then m.order else m.order ++ [k]
  value other := if other = k then v else m.value other

def unset (m : OrderedMap) (k : String) : OrderedMap := { m with order := m.order.erase k }

def integers (m : OrderedMap) : List Int :=
  m.order.filterMap fun k => (Decimal.readWord? k.toList).map (·.toInt)

/-- One more than the largest integer among the keys, within the 64-bit integers; zero when there is
none. -/
def freeKey (m : OrderedMap) : String :=
  match m.integers with
  | [] => "0"
  | n :: more => toString (min (more.foldl max n + 1) Int64.maxValue.toInt)

def append (m : OrderedMap) (v : Value) : OrderedMap := m.set m.freeKey v

end OrderedMap

/-- The keys whose text is what an array files them under. -/
inductive ArrayKey where
  | int (n : Int64)
  | string (s : String)
  | null
  | true

def ArrayKey.value : ArrayKey → Value
  | int n => .int n
  | string s => .string s
  | null => .null
  | true => .bool Bool.true

/-- An operation on the array in a variable. -/
inductive ArrayOperation where
  | set (key : ArrayKey) (v : Value)
  | append (v : Value)
  | unset (key : ArrayKey)

namespace ArrayOperation

/-- The statement `$name[key] = v`, `$name[] = v` or `unset($name[key])`. -/
def stmt (name : String) : ArrayOperation → Code.Stmt
  | set key v => .expr (.assign (.index (.var name) (.literal key.value)) (.literal v))
  | append v => .expr (.assign (.append (.var name)) (.literal v))
  | unset key => .unset [.index (.var name) (.literal key.value)]

def apply (m : OrderedMap) : ArrayOperation → OrderedMap
  | set key v => m.set key.value.key v
  | append v => m.append v
  | unset key => m.unset key.value.key

end ArrayOperation

/-- What an ordered map holds after operations on an empty one. -/
def OrderedMap.after (ops : List ArrayOperation) : OrderedMap :=
  ops.foldl ArrayOperation.apply .empty

def Run.State.arrayEntries (s : Run.State) (name : String) : Entries Value :=
  ((Entries.get? s.scope name).getD .null).entries

namespace OrderedMap

theorem keys_entries (m : OrderedMap) : Entries.keys m.entries = m.order := by
  simp [Entries.keys, entries, Function.comp_def]

theorem entries_set {m : OrderedMap} (hm : m.order.Nodup) (k : String) (v : Value) :
    (m.set k v).entries = Entries.insert m.entries k v := by
  obtain ⟨order, value⟩ := m
  simp only [set, entries]
  induction order with
  | nil => simp [Entries.insert]
  | cons first rest ih =>
    rw [List.nodup_cons] at hm
    rw [List.map_cons, Entries.insert]
    by_cases hk : first = k
    · subst hk
      have hrest : ∀ other ∈ rest, other ≠ first := fun other ho he => hm.1 (he ▸ ho)
      simp only [List.mem_cons, true_or, if_true, List.map_cons, List.cons.injEq, true_and]
      exact List.map_congr_left fun other ho => by rw [if_neg (hrest other ho)]
    · rw [if_neg hk, ← ih hm.2]
      by_cases hmem : k ∈ rest
      · simp [hmem, hk]
      · simp [hmem, hk, Ne.symm hk]

theorem entries_unset {m : OrderedMap} (hm : m.order.Nodup) (k : String) :
    (m.unset k).entries = Entries.erase m.entries k := by
  simp only [unset, entries, Entries.erase, hm.erase_eq_filter, List.filter_map]
  congr 1
  exact List.filter_congr fun other _ => by by_cases h : other = k <;> simp [h]

theorem nodup_set {m : OrderedMap} (hm : m.order.Nodup) (k : String) (v : Value) :
    (m.set k v).order.Nodup := by
  unfold set
  split
  · exact hm
  · rename_i hk
    exact List.nodup_append.mpr ⟨hm, by simp, by simp; rintro a ha rfl; exact hk ha⟩

theorem length_set_le (m : OrderedMap) (k : String) (v : Value) :
    (m.set k v).order.length ≤ m.order.length + 1 := by
  unfold set
  split <;> simp

theorem nextKey_entries (m : OrderedMap) : Value.nextKey m.entries = m.freeKey := by
  unfold Value.nextKey freeKey
  rw [keys_entries, show (m.order.filterMap fun k =>
    (Decimal.readWord? k.toList).map (·.toInt)) = m.integers from rfl]
  cases m.integers with
  | nil => rfl
  | cons n more => rw [List.max?_cons']

end OrderedMap

namespace ArrayOperation

theorem length_apply_le (m : OrderedMap) (op : ArrayOperation) :
    (op.apply m).order.length ≤ m.order.length + 1 := by
  cases op with
  | set key v => exact OrderedMap.length_set_le _ _ _
  | append v => exact OrderedMap.length_set_le _ _ _
  | unset key => exact Nat.le_succ_of_le List.length_erase_le

end ArrayOperation

namespace ArrayKey

theorem value_namesItsText (key : ArrayKey) : key.value.namesItsText := by
  apply Value.namesItsText_of_ne
  cases key <;> simp [value]

theorem position_of_text {key : ArrayKey} {i : Nat} (h : key.value.key = toString i)
    (hi : i < 2 ^ 63) : key.value.position? = some i := by
  apply Value.position?_of_key _ h hi
  intro x
  cases key <;> simp [value]

end ArrayKey

namespace Run

open Code

variable {m : Type → Type} [Monad m] [LawfulMonad m]

theorem assign_run {p : Place} {v new : Value} {s : State}
    (h : Value.store v p.path ((Entries.get? s.scope p.root).getD .null) = .ok new) :
    (assign p v : Step m Unit) s =
      pure (.ok (), { s with scope := Entries.insert s.scope p.root new }) := by
  rw [assign, bind_run_of_ok (get_run s)]
  simp only [h]
  exact modify_run _ _

/-- The variable holds an array with the entries of an ordered map, or nothing when there are
none. -/
structure Holds (s : State) (name : String) (reference : OrderedMap) : Prop where
  nodup : reference.order.Nodup
  isArray : ((Entries.get? s.scope name).getD .null).holdsEntries
  entries_eq : s.arrayEntries name = reference.entries

theorem Holds.length_entries {s : State} {name : String} {reference : OrderedMap}
    (h : Holds s name reference) :
    ((Entries.get? s.scope name).getD .null).entries.length = reference.order.length := by
  have := congrArg List.length h.entries_eq
  simpa [State.arrayEntries, OrderedMap.entries] using this

theorem Holds.assign {s : State} {name : String} {reference : OrderedMap}
    (h : Holds s name reference) (hl : reference.order.length < 2 ^ 63) (key : Option Value)
    (hkey : ∀ k, key = some k → k.namesItsText) (v : Value) :
    ∃ t, (Run.assign ⟨name, [key]⟩ v : Step m Unit) s = pure (.ok (), t) ∧
      Holds t name (reference.set (Value.keyText reference.entries key) v) := by
  obtain ⟨new, hnew, harray, hentries⟩ := Value.modify_entries (f := Value.store v []) (x := v)
    h.isArray hkey (by rw [h.length_entries]; exact hl) rfl
  refine ⟨_, assign_run (p := ⟨name, [key]⟩) hnew, OrderedMap.nodup_set h.nodup _ _, ?_, ?_⟩
  · rw [Entries.get?_insert_self]
    exact harray
  · rw [State.arrayEntries, Entries.get?_insert_self, Option.getD_some, hentries,
      OrderedMap.entries_set h.nodup]
    simp only [← h.entries_eq, State.arrayEntries]

theorem Holds.unset {s : State} {name : String} {reference : OrderedMap}
    (h : Holds s name reference) (hl : reference.order.length < 2 ^ 63) (key : ArrayKey) :
    ∃ t, (Run.unset ⟨name, [some key.value]⟩ : Step m Unit) s = pure (.ok (), t) ∧
      Holds t name (reference.unset key.value.key) := by
  have hnodup : (reference.unset key.value.key).order.Nodup := h.nodup.erase _
  obtain ⟨harray, hentries⟩ := Value.removeKey_entries h.isArray key.value fun i ht hi =>
    ArrayKey.position_of_text ht (by rw [h.length_entries] at hi; omega)
  rw [show ((Entries.get? s.scope name).getD .null).entries = s.arrayEntries name from rfl,
    h.entries_eq, ← OrderedMap.entries_unset h.nodup] at hentries
  refine ⟨_, modify_run _ _, hnodup, ?_, ?_⟩
  · cases hv : Entries.get? s.scope name with
    | none => simp [hv, Value.holdsEntries]
    | some c =>
      rw [hv, Option.getD_some] at harray
      simpa [hv, Entries.get?_insert_self, Value.removePath] using harray
  · cases hv : Entries.get? s.scope name with
    | none =>
      rw [hv] at hentries
      simpa [hv, State.arrayEntries, Value.removeKey] using hentries
    | some c =>
      rw [hv, Option.getD_some] at hentries
      simpa [hv, State.arrayEntries, Entries.get?_insert_self, Value.removePath] using hentries

theorem execStmt_set (host : Host m) (runBody : List Stmt → Step m Flow) (name : String)
    (key : ArrayKey) (v : Value) :
    execStmt host runBody ((ArrayOperation.set key v).stmt name) =
      (do Run.assign ⟨name, [some key.value]⟩ v; return .normal) := by
  simp [ArrayOperation.stmt, execStmt, read, place, Reading.same, Place.below, discard_eq]

theorem execStmt_append (host : Host m) (runBody : List Stmt → Step m Flow) (name : String)
    (v : Value) :
    execStmt host runBody ((ArrayOperation.append v).stmt name) =
      (do Run.assign ⟨name, [none]⟩ v; return .normal) := by
  simp [ArrayOperation.stmt, execStmt, read, place, Reading.same, Place.below, discard_eq]

theorem execStmt_unset (host : Host m) (runBody : List Stmt → Step m Flow) (name : String)
    (key : ArrayKey) :
    execStmt host runBody ((ArrayOperation.unset key).stmt name) =
      (do Run.unset ⟨name, [some key.value]⟩; return .normal) := by
  simp [ArrayOperation.stmt, execStmt, read, places, place, unsetAll, Reading.same, Place.below]

/-- One operation keeps the variable and the ordered map together. -/
theorem Holds.stmt {s : State} {name : String} {reference : OrderedMap}
    (h : Holds s name reference) (hl : reference.order.length < 2 ^ 63) (host : Host m)
    (runBody : List Stmt → Step m Flow) (op : ArrayOperation) :
    ∃ t, execStmt host runBody (op.stmt name) s = pure (.ok .normal, t) ∧
      Holds t name (op.apply reference) := by
  cases op with
  | set key v =>
    obtain ⟨t, ht, hh⟩ := h.assign (m := m) hl (some key.value)
      (fun k hk => Option.some.inj hk ▸ key.value_namesItsText) v
    exact ⟨t, by rw [execStmt_set, bind_run_of_ok ht, pure_run], hh⟩
  | append v =>
    obtain ⟨t, ht, hh⟩ := h.assign (m := m) hl none (by simp) v
    rw [Value.keyText, OrderedMap.nextKey_entries] at hh
    exact ⟨t, by rw [execStmt_append, bind_run_of_ok ht, pure_run], hh⟩
  | unset key =>
    obtain ⟨t, ht, hh⟩ := h.unset (m := m) hl key
    exact ⟨t, by rw [execStmt_unset, bind_run_of_ok ht, pure_run], hh⟩

theorem Holds.block {s : State} {name : String} {reference : OrderedMap}
    (h : Holds s name reference) (host : Host m) (runBody : List Stmt → Step m Flow)
    (ops : List ArrayOperation)
    (hl : ∀ before, before <+: ops →
      (before.foldl ArrayOperation.apply reference).order.length < 2 ^ 63) :
    ∃ t, execBlock host runBody (ops.map (·.stmt name)) s = pure (.ok .normal, t) ∧
      Holds t name (ops.foldl ArrayOperation.apply reference) := by
  induction ops generalizing s reference with
  | nil => exact ⟨s, rfl, h⟩
  | cons op rest ih =>
    obtain ⟨t, ht, hh⟩ := h.stmt (hl [] List.nil_prefix) host runBody op
    obtain ⟨u, hu, hr⟩ := ih hh fun before hb =>
      hl (op :: before) (List.cons_prefix_cons.mpr ⟨rfl, hb⟩)
    refine ⟨u, ?_, hr⟩
    rw [List.map_cons, execBlock, bind_run_of_ok ht]
    exact hu

end Run

theorem OrderedMap.length_after_le (ops : List ArrayOperation) :
    (OrderedMap.after ops).order.length ≤ ops.length := by
  induction ops using List.reverseRecOn with
  | nil => exact Nat.le_refl 0
  | append_singleton ops op ih =>
    rw [after, List.foldl_append, List.length_append, List.length_singleton]
    exact Nat.le_trans (op.length_apply_le _) (Nat.succ_le_succ ih)

/-- Whatever operations are made on the array in a variable that starts undefined, its entries are
those of the ordered map after the same operations. Every beginning of `ops` is a sequence of its
own, so this holds after each operation. An array holds less than `2 ^ 63` elements at any time, as
the memory does. -/
theorem arrayEntries_execBlock {m : Type → Type} [Monad m] [LawfulMonad m] (host : Run.Host m)
    (runBody : List Code.Stmt → Run.Step m Run.Flow) (name : String) (ops : List ArrayOperation)
    (hsize : ∀ before, before <+: ops → (OrderedMap.after before).order.length < 2 ^ 63)
    (s : Run.State) (hs : Entries.get? s.scope name = none) :
    ∃ t, Run.execBlock host runBody (ops.map (·.stmt name)) s = pure (.ok .normal, t) ∧
      t.arrayEntries name = (OrderedMap.after ops).entries := by
  have hstart : Run.Holds s name .empty :=
    ⟨List.nodup_nil, by simp [hs, Value.holdsEntries], by simp [Run.State.arrayEntries, hs]; rfl⟩
  obtain ⟨t, ht, hh⟩ := hstart.block host runBody ops hsize
  exact ⟨t, ht, hh.entries_eq⟩

/-- A text with a leading zero turns the list into a map; an append goes behind the largest key. -/
theorem arrayEntries_execBlock_of_mixed_keys :
    let ops : List ArrayOperation := [.append (.int 10), .set (.string "1") (.int 11),
      .set (.string "01") (.int 12), .unset (.int 0), .append (.int 13)]
    let host : Run.Host Id := ⟨[], Run.loadNothing, false, 50, 0⟩
    let start : Run.State := ⟨[("b", .null)], "", ⟨⟨"main.tpl"⟩, 0, 0⟩, []⟩
    (∀ before, before <+: ops → (OrderedMap.after before).order.length < 2 ^ 63) ∧
      Entries.get? start.scope "a" = none ∧
      ∃ t, Run.execBlock host (fun _ => pure .normal) (ops.map (·.stmt "a")) start =
          pure (.ok .normal, t) ∧
        t.arrayEntries "a" = [("1", .int 11), ("01", .int 12), ("2", .int 13)] := by
  intro ops host start
  have hsize : ∀ before, before <+: ops → (OrderedMap.after before).order.length < 2 ^ 63 := by
    intro before hb
    have hlen : before.length ≤ 5 := hb.length_le
    have := OrderedMap.length_after_le before
    omega
  have hstart : Entries.get? start.scope "a" = none := by decide
  obtain ⟨t, ht, he⟩ :=
    arrayEntries_execBlock host (fun _ => pure .normal) "a" ops hsize start hstart
  exact ⟨hsize, hstart, t, ht, he.trans rfl⟩

end ViewTemplate
