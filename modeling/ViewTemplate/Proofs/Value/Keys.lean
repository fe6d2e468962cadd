import ViewTemplate.Proofs.Code.Numerals
import ViewTemplate.Proofs.Value.ArrayEntries

namespace ViewTemplate

theorem Number.ofText?_toString {i : Nat} (h : i < 2 ^ 63) :
    ∃ n : Int64, ofText? (toString i) = some (.int n) ∧ n.toInt = i := by
  have hmax : Int64.maxValue.toInt = 2 ^ 63 - 1 := by decide
  obtain ⟨n, hn, hi⟩ := Option.map_eq_some_iff.mp
    (Decimal.readWord?_toString (n := i) (by omega))
  refine ⟨n, ?_, hi⟩
  rw [Nat.toString_eq_repr, Nat.toList_repr] at hn
  have hdigits : ∀ c ∈ Nat.toDigits 10 i, c.isDigit = true :=
    List.all_eq_true.mp (Decimal.all_isDigit_toDigits i)
  have htrim : Text.trim (Nat.toDigits 10 i) = Nat.toDigits 10 i :=
    trim_of_no_blank fun c hc =>
      Directive.isBlank_of_isWordChar (Code.isWordChar_of_isDigit (hdigits c hc))
  rw [ofText?, Nat.toString_eq_repr, Nat.toList_repr, htrim]
  obtain ⟨c, cs, hcs⟩ := List.exists_cons_of_ne_nil (Nat.toDigits_ne_nil (n := i) (b := 10))
  rw [hcs] at hn hdigits ⊢
  exact ofNumeral?_int (hdigits c List.mem_cons_self) hn

namespace Value

/-- The list position that a key is read as. -/
def readPosition? (key : Value) : Option Nat :=
  match key.number? with
  | some (.int n) => if 0 ≤ n.toInt then some n.toInt.toNat else none
  | _ => none

/-- The key of the element that an array has under a key. -/
def readKey? (c key : Value) : Option String :=
  match c with
  | .list _ => key.readPosition?.map toString
  | .map _ => some key.key
  | _ => none

/-- A key that is read as a list position without being its text: null, or another spelling. -/
def Loose (key : Value) : Prop :=
  key = .null ∨ ∃ text i, key = .string text ∧ key.readPosition? = some i ∧ text ≠ toString i

theorem element?_list (items : List Value) (key : Value) :
    (list items).element? key = key.readPosition?.bind (items[·]?) := by
  show (match key.number? with
    | some (.int n) => if 0 ≤ n.toInt then items[n.toInt.toNat]? else none
    | _ => none) = _
  unfold readPosition?
  rcases key.number? with - | (n | x)
  · rfl
  · dsimp only
    split <;> rfl
  · rfl

theorem element?_eq_get? (c key : Value) :
    c.element? key = (c.readKey? key).bind (Entries.get? c.entries) := by
  cases c with
  | list items =>
    rw [element?_list, readKey?, Option.bind_map]
    congr 1
    funext i
    exact (get?_listEntries items i).symm
  | _ => rfl

section Positions

variable {key : Value} {i : Nat}

theorem lt_of_readPosition? (h : key.readPosition? = some i) : i < 2 ^ 63 := by
  unfold readPosition? at h
  split at h
  · rename_i n _
    split at h
    · cases h
      have := n.toInt_lt
      omega
    · cases h
  · cases h

theorem readPosition?_of_position? (h : key.position? = some i) (hi : i < 2 ^ 63) :
    key.readPosition? = some i := by
  cases key with
  | int n => exact h
  | bool b =>
    cases h
    cases b <;> rfl
  | string text =>
    obtain ⟨rfl, -⟩ := indexText?_eq_some_iff.mp h
    obtain ⟨n, hn, hni⟩ := Number.ofText?_toString hi
    have hnumber : (Value.string (toString i)).number? = some (.int n) := hn
    rw [readPosition?, hnumber]
    dsimp only
    rw [if_pos (by omega), hni]
    rfl
  | _ => cases h

theorem element?_of_position? (items : List Value) (h : key.position? = some i) (hi : i < 2 ^ 63) :
    (list items).element? key = items[i]? := by
  rw [element?_list, readPosition?_of_position? h hi]
  rfl

/-- A key is written at the position that it is read at, or it is loose. -/
theorem position?_of_readPosition? (h : key.readPosition? = some i) (hloose : ¬key.Loose) :
    key.position? = some i := by
  cases key with
  | null => exact absurd (.inl rfl) hloose
  | bool b =>
    cases b <;> exact h
  | int n => exact h
  | string text =>
    by_cases htext : text = toString i
    · have hi := lt_of_readPosition? h
      have : UInt64.size = 2 ^ 64 := rfl
      exact indexText?_eq_some_iff.mpr ⟨htext, by omega⟩
    · exact absurd (.inr ⟨text, i, rfl, h, htext⟩) hloose
  | _ => cases h

end Positions

end Value

end ViewTemplate
