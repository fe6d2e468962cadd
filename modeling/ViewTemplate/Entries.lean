namespace ViewTemplate

/-- A key stands for its first pair. -/
abbrev Entries (α : Type) := List (String × α)

namespace Entries

variable {α β : Type}

def get? : Entries α → String → Option α
  | [], _ => none
  | (k, v) :: rest, key => if k = key then some v else get? rest key

/-- A new value for a key that is there stays in its place; a new key goes to the end. -/
def insert : Entries α → String → α → Entries α
  | [], key, v => [(key, v)]
  | (k, old) :: rest, key, v =>
    if k = key then (k, v) :: rest else (k, old) :: insert rest key v

def erase (m : Entries α) (key : String) : Entries α := m.filter fun p => p.1 ≠ key

def keys (m : Entries α) : List String := m.map Prod.fst

def values (m : Entries α) : List α := m.map Prod.snd

/-- Inserts pairs one after another: first position, last value. -/
def insertAll (m : Entries α) (pairs : List (String × α)) : Entries α :=
  pairs.foldl (fun m p => insert m p.1 p.2) m

def ofList (pairs : List (String × α)) : Entries α := insertAll [] pairs

theorem get?_insert_self (m : Entries α) (key : String) (v : α) :
    get? (insert m key v) key = some v := by
  induction m with
  | nil => simp [insert, get?]
  | cons p rest ih =>
    obtain ⟨k, old⟩ := p
    by_cases h : k = key <;> simp [insert, get?, h, ih]

theorem get?_insert_of_ne (m : Entries α) {key other : String} (h : other ≠ key) (v : α) :
    get? (insert m key v) other = get? m other := by
  induction m with
  | nil => simp [insert, get?, Ne.symm h]
  | cons p rest ih =>
    obtain ⟨k, old⟩ := p
    by_cases hk : k = key
    · subst hk
      simp [insert, get?, Ne.symm h]
    · simp [insert, get?, hk, ih]

theorem get?_erase_self (m : Entries α) (key : String) : get? (erase m key) key = none := by
  induction m with
  | nil => rfl
  | cons p rest ih =>
    obtain ⟨k, v⟩ := p
    by_cases h : k = key
    · simpa [erase, h] using ih
    · simpa [erase, get?, h] using ih

theorem get?_erase_of_ne (m : Entries α) {key other : String} (h : other ≠ key) :
    get? (erase m key) other = get? m other := by
  induction m with
  | nil => rfl
  | cons p rest ih =>
    obtain ⟨k, v⟩ := p
    by_cases hk : k = key
    · subst hk
      simpa [erase, get?, Ne.symm h] using ih
    · have hcons : erase ((k, v) :: rest) key = (k, v) :: erase rest key := by simp [erase, hk]
      rw [hcons, get?, get?, ih]

end Entries

end ViewTemplate
