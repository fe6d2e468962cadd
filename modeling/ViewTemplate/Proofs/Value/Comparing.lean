import ViewTemplate.Proofs.Decimal.Doubles
import ViewTemplate.Proofs.Value.Members
import ViewTemplate.Run.Operator

namespace ViewTemplate

theorem Number.compare_swap (x y : Number) : y.compare x = (x.compare y).map Ordering.swap := by
  cases x with
  | int m =>
    cases y with
    | int n => exact congrArg some (Std.OrientedOrd.eq_swap (a := n.toInt) (b := m.toInt))
    | float y => exact compareFloats_swap ..
  | float x => cases y <;> exact compareFloats_swap ..

theorem Number.compare_eq_comm {x y : Number} :
    y.compare x = some .eq ↔ x.compare y = some .eq := by
  rw [compare_swap x y]
  rcases x.compare y with - | (- | - | -) <;> simp

theorem Number.compare_self_of_text {s : String} {x : Number} (h : ofText? s = some x) :
    x.compare x = some .eq := by
  unfold ofText? ofNumeral? at h
  split at h
  · cases h
  · split at h
    · cases h
    · split at h
      · cases h
        exact congrArg some Std.ReflOrd.compare_self
      · split at h
        · obtain ⟨y, hy, rfl⟩ := Option.map_eq_some_iff.1 h
          refine (compareFloats_eq y y).trans (compare_unpacked_self ?_)
          exact Decimal.isNaN_readFloat? hy
        · cases h

namespace Value

inductive Manner where
  | truth
  | texts
  | numbers
  | arrays
  /-- Only one of the two is an array. -/
  | apart
deriving DecidableEq

def manner : Value → Value → Manner
  | .null, .string _ | .string _, .null => .texts
  | .bool _, _ | .null, _ | _, .bool _ | _, .null => .truth
  | .list _, .list _ | .list _, .map _ | .map _, .list _ | .map _, .map _ => .arrays
  | .list _, _ | .map _, _ | _, .list _ | _, .map _ => .apart
  | _, _ => .numbers

variable {a b : Value}

theorem manner_comm (a b : Value) : manner b a = manner a b := by
  cases a <;> cases b <;> rfl

theorem manner_eq_arrays : manner a b = .arrays ↔ a.isArray = true ∧ b.isArray = true := by
  constructor
  · intro h
    cases a <;> cases b <;> cases h <;> exact ⟨rfl, rfl⟩
  · rintro ⟨ha, hb⟩
    cases a <;> cases ha <;> cases b <;> cases hb <;> rfl

section Truth

variable (h : manner a b = .truth)
include h

theorem looseEq_of_truth : a.looseEq b = true ↔ a.truthy = b.truthy := by
  cases a <;> cases b <;> cases h
  all_goals first
    | exact decide_eq_true_iff
    | exact decide_eq_true_iff.trans eq_comm
    | simp [looseEq, truthy]

theorem looseCompare_of_truth : a.looseCompare b = some (compare a.truthy b.truthy) := by
  cases a <;> cases b <;> cases h
  all_goals rfl

end Truth

section Texts

variable (h : manner a b = .texts)
include h

theorem looseEq_of_texts : a.looseEq b = true ↔ a.output = b.output := by
  cases a <;> cases b <;> cases h
  all_goals simp [looseEq, output, eq_comm]

theorem looseCompare_of_texts : a.looseCompare b = some (compare a.output b.output) := by
  cases a <;> cases b <;> cases h
  all_goals rfl

end Texts

section Numbers

theorem looseEqText_iff {s t : String} : looseEqText s t = true ↔
    match Number.ofText? s, Number.ofText? t with
    | some x, some y => x.compare y = some .eq
    | _, _ => s = t := by
  unfold looseEqText sameNumber
  cases Number.ofText? s <;> cases Number.ofText? t <;> simp

theorem looseEqNumberText_iff {n : Number} {s : String} : looseEqNumberText n s = true ↔
    match some n, Number.ofText? s with
    | some x, some y => x.compare y = some .eq
    | _, _ => n.toValue.output = s := by
  unfold looseEqNumberText sameNumber
  cases Number.ofText? s <;> simp

variable (h : manner a b = .numbers)
include h

/-- Numbers are equal as numbers, and where one of the two is none their outputs are. -/
theorem looseEq_of_numbers : a.looseEq b = true ↔ match a.number?, b.number? with
    | some x, some y => x.compare y = some .eq
    | _, _ => a.output = b.output := by
  cases a <;> cases b <;> cases h
  case string.string s t => exact looseEqText_iff
  case int.string m s => exact looseEqNumberText_iff
  case float.string x s => exact looseEqNumberText_iff
  case string.int s n =>
    refine looseEqNumberText_iff.trans ?_
    cases hs : Number.ofText? s <;> simp [number?, hs, Number.compare_eq_comm]
    exact eq_comm
  case string.float s y =>
    refine looseEqNumberText_iff.trans ?_
    cases hs : Number.ofText? s <;> simp [number?, hs, Number.compare_eq_comm]
    exact eq_comm
  all_goals exact beq_iff_eq

theorem looseCompare_of_numbers : a.looseCompare b = match a.number?, b.number? with
    | some x, some y => x.compare y
    | _, _ => some (compare a.output b.output) := by
  cases a <;> cases b <;> cases h
  all_goals rfl

end Numbers

theorem looseEq_of_apart (h : manner a b = .apart) : a.looseEq b = false := by
  cases a <;> cases b <;> cases h
  all_goals rfl

theorem looseCompare_of_apart (h : manner a b = .apart) :
    a.looseCompare b = some (if a.isArray then .gt else .lt) := by
  cases a <;> cases b <;> cases h
  all_goals rfl

def size (v : Value) : Nat := v.length?.getD 0

theorem looseCompare_of_arrays (h : manner a b = .arrays) :
    a.looseCompare b = some (compare a.size b.size) := by
  cases a <;> cases b <;> cases h
  all_goals rfl

theorem looseCompare_swap (a b : Value) :
    b.looseCompare a = (a.looseCompare b).map Ordering.swap := by
  have hswap {α : Type} [Ord α] [Std.OrientedOrd α] (x y : α) :
      some (compare y x) = (some (compare x y)).map Ordering.swap :=
    congrArg some Std.OrientedOrd.eq_swap
  have hm := manner_comm a b
  cases h : manner a b with
  | truth =>
    rw [looseCompare_of_truth h, looseCompare_of_truth (hm.trans h)]
    exact hswap ..
  | texts =>
    rw [looseCompare_of_texts h, looseCompare_of_texts (hm.trans h)]
    exact hswap ..
  | numbers =>
    rw [looseCompare_of_numbers h, looseCompare_of_numbers (hm.trans h)]
    cases a.number? with
    | none => cases b.number? <;> exact hswap ..
    | some x =>
      cases b.number? with
      | none => exact hswap ..
      | some y => exact Number.compare_swap x y
  | arrays =>
    rw [looseCompare_of_arrays h, looseCompare_of_arrays (hm.trans h)]
    exact hswap ..
  | apart =>
    rw [looseCompare_of_apart h, looseCompare_of_apart (hm.trans h)]
    cases a <;> cases b <;> cases h <;> rfl

/-- Except for two arrays, equal is what neither comes before the other. -/
theorem looseEq_iff_looseCompare (h : manner a b ≠ .arrays) :
    a.looseEq b = true ↔ a.looseCompare b = some .eq := by
  have heq {α : Type} [Ord α] [Std.LawfulEqOrd α] {x y : α} :
      x = y ↔ some (compare x y) = some .eq := by
    rw [Option.some_inj, Std.LawfulEqOrd.compare_eq_iff_eq]
  cases hm : manner a b with
  | truth => rw [looseEq_of_truth hm, looseCompare_of_truth hm, heq]
  | texts => rw [looseEq_of_texts hm, looseCompare_of_texts hm, heq]
  | numbers =>
    rw [looseEq_of_numbers hm, looseCompare_of_numbers hm]
    cases a.number? with
    | none => cases b.number? <;> exact heq
    | some x => cases b.number? <;> first | exact Iff.rfl | exact heq
  | arrays => exact absurd hm h
  | apart =>
    rw [looseEq_of_apart hm, looseCompare_of_apart hm]
    split <;> simp

theorem looseEq_comm_of_manner (h : manner a b ≠ .arrays) : a.looseEq b = b.looseEq a := by
  have h' : manner b a ≠ .arrays := manner_comm a b ▸ h
  rw [Bool.eq_iff_iff, looseEq_iff_looseCompare h, looseEq_iff_looseCompare h',
    looseCompare_swap b a]
  rcases b.looseCompare a with - | (- | - | -) <;> simp

theorem looseEq_comm (ha : DistinctKeys a) (hb : DistinctKeys b) : a.looseEq b = b.looseEq a := by
  induction ha generalizing b with
  | scalar h =>
    refine looseEq_comm_of_manner fun hm => ?_
    rw [(manner_eq_arrays.1 hm).1] at h
    cases h
  | @list items h ih =>
    cases hb with
    | scalar hb => exact looseEq_comm_of_manner fun hm => by simp [(manner_eq_arrays.1 hm).2] at hb
    | @list others hb =>
      show looseEqItems items others = looseEqItems others items
      rw [Bool.eq_iff_iff, looseEqItems_iff, looseEqItems_iff]
      exact forall₂_comm_of_mem fun x hx y hy => by rw [ih x hx (hb y hy)]
    | map _ _ => exact Bool.and_comm ..
  | @map es hkeys h ih =>
    cases hb with
    | scalar hb => exact looseEq_comm_of_manner fun hm => by simp [(manner_eq_arrays.1 hm).2] at hb
    | list _ => exact Bool.and_comm ..
    | @map others hkeys' hb =>
      show (decide (es.length = others.length) && looseEqEntries es others) =
        (decide (others.length = es.length) && looseEqEntries others es)
      rw [Bool.eq_iff_iff]
      simp only [Bool.and_eq_true, decide_eq_true_eq, looseEqEntries_iff,
        eq_comm (a := others.length)]
      refine and_congr_right fun hlength => ?_
      exact Entries.partnered_comm hkeys hkeys' hlength fun p hp q hq => by rw [ih p hp (hb q hq)]

theorem looseCompare_of_looseEq (h : a.looseEq b = true) : a.looseCompare b = some .eq := by
  by_cases hm : manner a b = .arrays
  · have hsize : a.size = b.size := by
      cases a <;> cases b <;> cases hm
      case list.list items others => exact (looseEqItems_iff.1 h).length_eq
      case map.map es others => exact of_decide_eq_true (Bool.and_eq_true_iff.1 h).1
      all_goals
        obtain ⟨hempty, hempty'⟩ := Bool.and_eq_true_iff.1 h
        simp [size, length?, List.isEmpty_iff.1 hempty, List.isEmpty_iff.1 hempty']
    rw [looseCompare_of_arrays hm, hsize]
    exact congrArg some Std.ReflOrd.compare_self
  · exact (looseEq_iff_looseCompare hm).1 h

theorem looseEq_of_identical_scalar (ha : a.isArray = false) (h : a.identical b = true) :
    a.looseEq b = true := by
  cases a <;> cases b <;> simp [identical] at h
  case null.null => rfl
  case bool.bool p q => exact decide_eq_true h
  case int.int m n =>
    subst h
    exact beq_iff_eq.2 (congrArg some Std.ReflOrd.compare_self)
  case float.float x y => exact beq_iff_eq.2 (Number.compareFloats_eq_iff.2 h)
  case string.string s t =>
    subst h
    refine looseEqText_iff.2 ?_
    cases hs : Number.ofText? s with
    | none => rfl
    | some x => exact Number.compare_self_of_text hs
  all_goals cases ha

theorem looseEq_of_identical (ha : DistinctKeys a) (hb : DistinctKeys b)
    (h : a.identical b = true) : a.looseEq b = true :=
  of_identical (R := fun a b => a.looseEq b = true) looseEq_of_identical_scalar looseEqItems_iff.2
    (fun hlength hpartners => Bool.and_eq_true_iff.2
      ⟨decide_eq_true hlength, looseEqEntries_iff.2 hpartners⟩) ha hb h

end Value

/-- The comparisons of two values are coherent: equality is symmetric and the order turns around
with its operands; what is equal is neither less nor greater, and what is neither is equal unless
both are arrays; and what is identical is equal. -/
theorem comparisons_coherent {a b : Value} (ha : DistinctKeys a) (hb : DistinctKeys b) :
    a.looseEq b = b.looseEq a ∧
    b.looseCompare a = (a.looseCompare b).map Ordering.swap ∧
    Run.binary .lt a b = Run.binary .gt b a ∧
    Run.binary .le a b = Run.binary .ge b a ∧
    (a.looseEq b = true → a.looseCompare b = some .eq) ∧
    (¬(a.isArray = true ∧ b.isArray = true) → a.looseCompare b = some .eq → a.looseEq b = true) ∧
    (a.identical b = true → a.looseEq b = true) := by
  have hswap := Value.looseCompare_swap a b
  refine ⟨Value.looseEq_comm ha hb, hswap, ?_, ?_, Value.looseCompare_of_looseEq, ?_,
    Value.looseEq_of_identical ha hb⟩
  · simp only [Run.binary, Run.ordered, hswap]
    rcases a.looseCompare b with - | (- | - | -) <;> rfl
  · simp only [Run.binary, Run.ordered, hswap]
    rcases a.looseCompare b with - | (- | - | -) <;> rfl
  · intro harrays
    exact (Value.looseEq_iff_looseCompare fun hm => harrays (Value.manner_eq_arrays.1 hm)).2

/-- Two maps with the same nested entries in another order. -/
theorem comparisons_coherent_of_reordered_maps :
    let a : Value := .map [("x", .list [.int 1, .string "2"]), ("y", .null)]
    let b : Value := .map [("y", .bool false), ("x", .list [.string "1", .int 2])]
    DistinctKeys a ∧ DistinctKeys b ∧ a.looseEq b = true ∧ b.looseEq a = true ∧
      a.looseCompare b = some .eq := by
  intro a b
  have ha : DistinctKeys a := by
    refine .map (by decide) fun p hp => ?_
    rcases List.mem_cons.1 hp with rfl | hp
    · exact .list_of_scalars (by decide)
    · exact .scalar (by rw [List.mem_singleton.1 hp]; rfl)
  have hb : DistinctKeys b := by
    refine .map (by decide) fun p hp => ?_
    rcases List.mem_cons.1 hp with rfl | hp
    · exact .scalar rfl
    · rw [List.mem_singleton.1 hp]
      exact .list_of_scalars (by decide)
  have hab : a.looseEq b = true := by decide
  obtain ⟨hcomm, -, -, -, hequal, -, -⟩ := comparisons_coherent ha hb
  exact ⟨ha, hb, hab, hcomm ▸ hab, hequal hab⟩

end ViewTemplate
