import ViewTemplate.Proofs.Pattern.Spans
import Mathlib

namespace ViewTemplate

open scoped Finset

variable {ks : Finset Nat} {c : Char} {m n : Cursor}

/-- How often a character stands in what some groups have taken, every time that they took part. -/
def kept (ks : Finset Nat) (c : Char) (gs : List (Nat × Span)) : Nat :=
  (gs.map fun g => if g.1 ∈ ks then g.2.text.count c else 0).sum

theorem sum_count_group_le (ks : Finset Nat) (c : Char) (f : Found) :
    ∑ k ∈ ks, (f.group k).toList.count c ≤ kept ks c f.groups := by
  obtain ⟨span, gs⟩ := f
  induction gs with
  | nil => simp [kept, Found.group, Found.group?]
  | cons g gs ih =>
    have hstep : ∀ k, (Found.group ⟨span, g :: gs⟩ k).toList.count c ≤
        (if g.1 = k then g.2.text.count c else 0) + (Found.group ⟨span, gs⟩ k).toList.count c := by
      intro k
      by_cases hk : g.1 = k <;> simp [Found.group, Found.group?, hk]
    calc ∑ k ∈ ks, (Found.group ⟨span, g :: gs⟩ k).toList.count c
        ≤ ∑ k ∈ ks, ((if g.1 = k then g.2.text.count c else 0) +
            (Found.group ⟨span, gs⟩ k).toList.count c) := Finset.sum_le_sum fun k _ => hstep k
      _ = (if g.1 ∈ ks then g.2.text.count c else 0) +
            ∑ k ∈ ks, (Found.group ⟨span, gs⟩ k).toList.count c := by
          rw [Finset.sum_add_distrib, Finset.sum_ite_eq]
      _ ≤ kept ks c (g :: gs) := Nat.add_le_add_left ih _

theorem kept_cons (g : Nat × Span) (gs : List (Nat × Span)) :
    kept ks c (g :: gs) = (if g.1 ∈ ks then g.2.text.count c else 0) + kept ks c gs := rfl

theorem kept_append (gs hs : List (Nat × Span)) :
    kept ks c (gs ++ hs) = kept ks c gs + kept ks c hs := by
  simp [kept]

theorem kept_eq_zero {gs : List (Nat × Span)} (h : ∀ g ∈ gs, g.1 ∉ ks) : kept ks c gs = 0 := by
  rw [kept, List.sum_eq_zero]
  intro k hk
  obtain ⟨g, hg, rfl⟩ := List.mem_map.mp hk
  exact if_neg (h g hg)

namespace Cursor

/-- How often a character stands in what some groups have taken, and in what follows. -/
def weight (ks : Finset Nat) (c : Char) (m : Cursor) : Nat := m.rest.count c + kept ks c m.groups

theorem weight_start (before : Option Char) (cs : List Char) :
    weight ks c ⟨before, cs, 0, []⟩ = cs.count c := rfl

theorem weight_keep {number : Nat} (h : number ∉ ks) :
    (n.keep number m).weight ks c = n.weight ks c := by
  simp [weight, keep, kept_cons, h]

theorem Goes.weight (ks : Finset Nat) (c : Char) {w : List Char} {gs : List (Nat × Span)}
    (h : m.Goes w gs n) : n.weight ks c + w.count c = m.weight ks c + kept ks c gs := by
  rw [Cursor.weight, Cursor.weight, h.rest, h.groups, kept_append, List.count_append]
  omega

theorem weight_le_of_past {w : List Char} (h : m.Past w n) : n.weight ks c ≤ m.weight ks c := by
  have := h.goes.weight ks c
  simp only [kept, List.map_nil, List.sum_nil] at this
  omega

theorem weight_lt_of_past {w : List Char} (h : m.Past w n) (hw : c ∈ w) :
    n.weight ks c < m.weight ks c := by
  have := h.goes.weight ks c
  have hpos := List.count_pos_iff.mpr hw
  simp only [kept, List.map_nil, List.sum_nil] at this
  omega

end Cursor

namespace Pattern

open Cursor

/-- None of some groups stands inside another one. -/
def flat (ks : Finset Nat) : Pattern → Bool
  | seq a b | alt a b => a.flat ks && b.flat ks
  | many a | few a => a.flat ks
  | group number a => if number ∈ ks then a.numbers.all (· ∉ ks) else a.flat ks
  | empty | char _ | notAhead _ | wordEdge | atEnd => true

theorem weight_star {a : Pattern} (ha : ∀ {m n}, a.Takes m n → n.weight ks c ≤ m.weight ks c)
    (h : Relation.ReflTransGen a.Takes m n) : n.weight ks c ≤ m.weight ks c := by
  induction h with
  | refl => exact le_rfl
  | tail _ hstep ih => exact (ha hstep).trans ih

/-- A match takes no character into two groups. -/
theorem weight_of_takes : ∀ {a : Pattern} {m n : Cursor}, a.Takes m n → a.flat ks = true →
    n.weight ks c ≤ m.weight ks c
  | empty, _, _, rfl, _ | wordEdge, _, _, ⟨rfl, _⟩, _ | atEnd, _, _, ⟨rfl, _⟩, _
  | notAhead _, _, _, ⟨rfl, _⟩, _ => le_rfl
  | char _, _, _, h, _ => by
    obtain ⟨_, -, hpast⟩ := takes_char h
    exact weight_le_of_past hpast
  | seq a b, _, _, ⟨_, ha, hb⟩, hflat => by
    rw [flat, Bool.and_eq_true] at hflat
    exact (weight_of_takes hb hflat.2).trans (weight_of_takes ha hflat.1)
  | alt a b, _, _, h, hflat => by
    rw [flat, Bool.and_eq_true] at hflat
    rcases h with h | h
    · exact weight_of_takes h hflat.1
    · exact weight_of_takes h hflat.2
  | many a, _, _, h, hflat | few a, _, _, h, hflat =>
    weight_star (a := a) (fun hstep => weight_of_takes hstep hflat) h
  | group number a, m, _, ⟨k, h, rfl⟩, hflat => by
    by_cases hnumber : number ∈ ks
    · rw [flat, if_pos hnumber, List.all_eq_true] at hflat
      obtain ⟨w, gs, hgoes, -, hgs⟩ := covers_of_takes h
      -- No group that counts lies in another, so the characters of this one are counted once.
      have hnone : kept ks c gs = 0 :=
        kept_eq_zero fun g hg => of_decide_eq_true (hflat g.1 (hgs g hg))
      have hkeep := (hgoes.keep number).weight ks c
      have hone : kept ks c ((number, ⟨w ++ k.rest, w.length⟩) :: gs) = w.count c := by
        have htext : Span.text ⟨w ++ k.rest, w.length⟩ = w := List.take_left
        rw [kept_cons, hnone, if_pos hnumber, htext, Nat.add_zero]
      omega
    · rw [flat, if_neg hnumber] at hflat
      exact (weight_keep hnumber).trans_le (weight_of_takes h hflat)

section Words

theorem numbers_anyCase (s : String) : (anyCase s).numbers = [] := by
  unfold anyCase
  induction s.toList with
  | nil => rfl
  | cons x xs ih => exact ih

theorem avoids_exact {s : String} (h : c ∉ s.toList) : (exact s).avoids c = true := by
  unfold exact
  generalize s.toList = cs at h
  induction cs with
  | nil => rfl
  | cons x xs ih =>
    rw [List.mem_cons, not_or] at h
    exact Bool.and_eq_true_iff.mpr ⟨by simpa [avoids] using h.1, ih h.2⟩

theorem avoids_anyCase {s : String} (h : ∀ x ∈ s.toList, Text.foldChar c ≠ Text.foldChar x) :
    (anyCase s).avoids c = true := by
  unfold anyCase
  generalize s.toList = cs at h
  induction cs with
  | nil => rfl
  | cons x xs ih =>
    obtain ⟨hx, hxs⟩ := List.forall_mem_cons.mp h
    exact Bool.and_eq_true_iff.mpr ⟨by simpa [avoids] using hx, ih hxs⟩

/-- A character that folds like no other is taken with the word that it stands in. -/
theorem weight_lt_of_anyCase {s : String} (hfold : ∀ x, Text.foldChar x = Text.foldChar c → x = c)
    (hc : c ∈ s.toList) (h : (anyCase s).Takes m n) : n.weight ks c < m.weight ks c := by
  obtain ⟨w, hw, hpast⟩ := takes_anyCase h
  refine weight_lt_of_past hpast ?_
  have hmem : Text.foldChar c ∈ w.map Text.foldChar := hw ▸ List.mem_map_of_mem hc
  obtain ⟨x, hx, hsame⟩ := List.mem_map.mp hmem
  exact hfold x hsame ▸ hx

theorem weight_lt_of_exact {s : String} (hc : c ∈ s.toList) (h : (exact s).Takes m n) :
    n.weight ks c < m.weight ks c :=
  weight_lt_of_past (takes_exact h) hc

end Words

theorem flat_of_numbers : ∀ {a : Pattern}, a.numbers = [] → a.flat ks = true
  | seq a b, h | alt a b, h => by
    obtain ⟨ha, hb⟩ := List.append_eq_nil_iff.mp h
    rw [flat, flat_of_numbers ha, flat_of_numbers hb]
    rfl
  | many a, h | few a, h => flat_of_numbers (a := a) h
  | group _ _, h => nomatch h
  | empty, _ | char _, _ | notAhead _, _ | wordEdge, _ | atEnd, _ => rfl

theorem flat_group_of_numbers {a : Pattern} (number : Nat) (h : a.numbers = []) :
    (group number a).flat ks = true := by
  rw [flat, h, flat_of_numbers h]
  exact ite_self true

end Pattern

end ViewTemplate
