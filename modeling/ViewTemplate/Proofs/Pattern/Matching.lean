import ViewTemplate.Pattern.Search
import Mathlib.Logic.Relation

namespace ViewTemplate

namespace Cursor

def after (m : Cursor) (w rest : List Char) : Cursor where
  before := w.getLast?.or m.before
  rest
  position := m.position + w.length
  groups := m.groups

variable {m : Cursor} {u v rest r : List Char}

@[simp] theorem after_rest : (m.after u rest).rest = rest := rfl

@[simp] theorem after_position : (m.after u rest).position = m.position + u.length := rfl

@[simp] theorem after_groups : (m.after u rest).groups = m.groups := rfl

theorem after_nil (h : m.rest = [] ++ rest) : m.after [] rest = m := by
  rw [List.nil_append] at h
  subst h
  rfl

theorem after_after : (m.after u r).after v rest = m.after (u ++ v) rest := by
  unfold after
  rw [List.getLast?_append, Option.or_assoc, List.length_append, Nat.add_assoc]

def keep (n : Cursor) (number : Nat) (m : Cursor) : Cursor :=
  { n with groups := (number, ⟨m.rest, n.position - m.position⟩) :: n.groups }

@[simp] theorem keep_rest (n : Cursor) (number : Nat) : (n.keep number m).rest = n.rest := rfl

@[simp] theorem keep_position (n : Cursor) (number : Nat) :
    (n.keep number m).position = n.position := rfl

/-- The text that leads from one place to another. -/
def Past (m : Cursor) (w : List Char) (n : Cursor) : Prop :=
  m.rest = w ++ n.rest ∧ n = m.after w n.rest

theorem past_nil (m : Cursor) : m.Past [] m := ⟨rfl, (after_nil rfl).symm⟩

theorem past_after {w : List Char} (h : m.rest = w ++ rest) : m.Past w (m.after w rest) :=
  ⟨h, rfl⟩

theorem Past.trans {m n k : Cursor} {u v : List Char} (hu : m.Past u k) (hv : k.Past v n) :
    m.Past (u ++ v) n := by
  refine ⟨?_, ?_⟩
  · rw [hu.1, hv.1, List.append_assoc]
  · have hn := hv.2
    rw [hu.2, after_after] at hn
    exact hn

end Cursor

namespace Pattern

/-- A pattern can lead from one place to another. -/
def Takes : Pattern → Cursor → Cursor → Prop
  | empty, m, n => m = n
  | char p, m, n => ∃ c rest, m.rest = c :: rest ∧ p c = true ∧ n = m.after [c] rest
  | seq a b, m, n => ∃ k, a.Takes m k ∧ b.Takes k n
  | alt a b, m, n => a.Takes m n ∨ b.Takes m n
  | many a, m, n | few a, m, n => Relation.ReflTransGen a.Takes m n
  | group number a, m, n => ∃ k, a.Takes m k ∧ n = k.keep number m
  | notAhead a, m, n => m = n ∧ a.run some m = none
  | wordEdge, m, n =>
    m = n ∧ m.before.any Text.isWordPart ≠ m.rest.head?.any Text.isWordPart
  | atEnd, m, n => m = n ∧ m.rest = []

-- The matcher's equations are prepared once for the proofs that follow.
attribute [local simp] repeated run

variable {a b : Pattern} {p : Char → Bool} {next : Cursor → Option Cursor} {m n r : Cursor}

theorem repeated_takes {greedy : Bool}
    (ha : ∀ {next : Cursor → Option Cursor} {m r : Cursor}, a.run next m = some r →
      ∃ n, a.Takes m n ∧ next n = some r) :
    ∀ {room : List Char} {m : Cursor}, repeated greedy a.run next room m = some r →
      ∃ n, Relation.ReflTransGen a.Takes m n ∧ next n = some r := by
  intro room
  induction room with
  | nil => exact fun h => ⟨_, .refl, h⟩
  | cons _ room ih =>
    intro m h
    -- One more turn of the repetition, be it tried first or last.
    have hagain : a.run (fun n =>
        if m.position < n.position then repeated greedy a.run next room n else none) m = some r →
        ∃ n, Relation.ReflTransGen a.Takes m n ∧ next n = some r := by
      intro h
      obtain ⟨k, hk, hnext⟩ := ha h
      split at hnext
      · obtain ⟨n, hn, hr⟩ := ih hnext
        exact ⟨n, .head hk hn, hr⟩
      · cases hnext
    rw [repeated] at h
    cases greedy with
    | true =>
      rw [if_pos rfl, Option.orElse_eq_or, Option.or_eq_some_iff] at h
      rcases h with h | ⟨-, h⟩
      · exact hagain h
      · exact ⟨m, .refl, h⟩
    | false =>
      rw [if_neg Bool.false_ne_true, Option.orElse_eq_or, Option.or_eq_some_iff] at h
      rcases h with h | ⟨-, h⟩
      · exact ⟨m, .refl, h⟩
      · exact hagain h

/-- A match goes on from a place that the pattern leads to. -/
theorem takes_of_run : ∀ {a : Pattern} {next : Cursor → Option Cursor} {m r : Cursor},
    a.run next m = some r → ∃ n, a.Takes m n ∧ next n = some r
  | empty, _, m, _, h => ⟨m, rfl, h⟩
  | char p, _, m, _, h => by
    rw [run] at h
    split at h
    · rename_i c rest hrest
      split at h
      · exact ⟨_, ⟨c, rest, hrest, ‹_›, rfl⟩, h⟩
      · cases h
    · cases h
  | seq a b, _, _, _, h => by
    obtain ⟨k, hk, h⟩ := takes_of_run (a := a) h
    obtain ⟨n, hn, h⟩ := takes_of_run h
    exact ⟨n, ⟨k, hk, hn⟩, h⟩
  | alt a b, _, _, _, h => by
    rw [run, Option.orElse_eq_or, Option.or_eq_some_iff] at h
    rcases h with h | ⟨-, h⟩
    · obtain ⟨n, hn, h⟩ := takes_of_run h
      exact ⟨n, .inl hn, h⟩
    · obtain ⟨n, hn, h⟩ := takes_of_run h
      exact ⟨n, .inr hn, h⟩
  | many a, _, _, _, h => repeated_takes takes_of_run h
  | few a, _, _, _, h => repeated_takes takes_of_run h
  | group number a, _, _, _, h => by
    obtain ⟨k, hk, h⟩ := takes_of_run (a := a) h
    exact ⟨_, ⟨k, hk, rfl⟩, h⟩
  | notAhead a, _, m, _, h => by
    rw [run] at h
    split at h
    · cases h
    · exact ⟨m, ⟨rfl, Option.not_isSome_iff_eq_none.mp ‹_›⟩, h⟩
  | wordEdge, _, m, _, h => by
    rw [run] at h
    split at h
    · exact ⟨m, ⟨rfl, ‹_›⟩, h⟩
    · cases h
  | atEnd, _, m, _, h => by
    rw [run] at h
    split at h
    · exact ⟨m, ⟨rfl, List.isEmpty_iff.mp ‹_›⟩, h⟩
    · cases h

theorem run_eq_none (h : ∀ n, a.Takes m n → next n = none) : a.run next m = none := by
  cases hr : a.run next m with
  | none => rfl
  | some r =>
    obtain ⟨n, hn, hnext⟩ := takes_of_run hr
    rw [h n hn] at hnext
    cases hnext

section Takes

theorem takes_char (h : (char p).Takes m n) : ∃ c, p c = true ∧ m.Past [c] n := by
  obtain ⟨c, rest, hrest, hc, rfl⟩ := h
  exact ⟨c, hc, Cursor.past_after hrest⟩

theorem takes_exact {s : String} (h : (exact s).Takes m n) : m.Past s.toList n := by
  unfold exact at h
  generalize s.toList = cs at h
  induction cs generalizing m with
  | nil =>
    cases h
    exact Cursor.past_nil _
  | cons c cs ih =>
    obtain ⟨k, hc, hk⟩ := h
    obtain ⟨d, hd, hpast⟩ := takes_char hc
    cases of_decide_eq_true hd
    exact hpast.trans (ih hk)

theorem takes_anyCase {s : String} (h : (anyCase s).Takes m n) :
    ∃ w, w.map Text.foldChar = s.toList.map Text.foldChar ∧ m.Past w n := by
  unfold anyCase at h
  generalize s.toList = cs at h
  induction cs generalizing m with
  | nil =>
    cases h
    exact ⟨[], rfl, Cursor.past_nil _⟩
  | cons c cs ih =>
    obtain ⟨k, hc, hk⟩ := h
    obtain ⟨d, hd, hpast⟩ := takes_char hc
    obtain ⟨w, hw, hrest⟩ := ih hk
    exact ⟨d :: w, by rw [List.map_cons, List.map_cons, hw, of_decide_eq_true hd],
      hpast.trans hrest⟩

/-- Repeating a pattern that takes single characters takes a word of them. -/
theorem takes_star {q : Char → Prop} (ha : ∀ {m n}, a.Takes m n → ∃ c, q c ∧ m.Past [c] n)
    (h : Relation.ReflTransGen a.Takes m n) : ∃ w, (∀ c ∈ w, q c) ∧ m.Past w n := by
  induction h using Relation.ReflTransGen.head_induction_on with
  | refl => exact ⟨[], nofun, Cursor.past_nil _⟩
  | head hk _ ih =>
    obtain ⟨c, hc, hpast⟩ := ha hk
    obtain ⟨w, hw, hrest⟩ := ih
    refine ⟨c :: w, ?_, hpast.trans hrest⟩
    intro d hd
    rcases List.mem_cons.mp hd with rfl | hd
    · exact hc
    · exact hw d hd

theorem takes_many (h : (many (char p)).Takes m n) :
    ∃ w, (∀ c ∈ w, p c = true) ∧ m.Past w n := takes_star takes_char h

theorem takes_few (h : (few (char p)).Takes m n) :
    ∃ w, (∀ c ∈ w, p c = true) ∧ m.Past w n := takes_star takes_char h

theorem takes_many1 {q : Char → Prop} (ha : ∀ {m n}, a.Takes m n → ∃ c, q c ∧ m.Past [c] n)
    (h : (many1 a).Takes m n) : ∃ w, w ≠ [] ∧ (∀ c ∈ w, q c) ∧ m.Past w n := by
  obtain ⟨k, hc, hk⟩ := h
  obtain ⟨c, hc, hpast⟩ := ha hc
  obtain ⟨w, hw, hrest⟩ := takes_star ha hk
  refine ⟨c :: w, nofun, ?_, hpast.trans hrest⟩
  intro d hd
  rcases List.mem_cons.mp hd with rfl | hd
  · exact hc
  · exact hw d hd

theorem takes_few1 (h : (few1 (char p)).Takes m n) :
    ∃ w, w ≠ [] ∧ (∀ c ∈ w, p c = true) ∧ m.Past w n :=
  takes_many1 (a := char p) takes_char h

end Takes

section Run

variable {w rest : List Char} {c : Char}

theorem run_seq (a b : Pattern) (next : Cursor → Option Cursor) (m : Cursor) :
    (a ++ b).run next m = a.run (b.run next) m := rfl

theorem run_group (number : Nat) (a : Pattern) (next : Cursor → Option Cursor) (m : Cursor) :
    (group number a).run next m = a.run (fun n => next (n.keep number m)) m := rfl

theorem run_char (h : m.rest = c :: rest) (hc : p c = true) :
    (char p).run next m = next (m.after [c] rest) := by
  rw [run, h]
  simp only [hc, if_true]
  rfl

theorem run_char_none (h : ∀ c, m.rest.head? = some c → p c = false) :
    (char p).run next m = none := by
  refine run_eq_none fun n hn => ?_
  obtain ⟨c, hc, hpast⟩ := takes_char hn
  rw [h c (by rw [hpast.1]; rfl)] at hc
  cases hc

theorem run_exact {s : String} (hs : s.toList = w) (h : m.rest = w ++ rest) :
    (exact s).run next m = next (m.after w rest) := by
  unfold exact
  rw [hs]
  clear hs
  induction w generalizing m with
  | nil => rw [Cursor.after_nil h]; rfl
  | cons c cs ih =>
    rw [List.foldr_cons, run_seq, run_char h (decide_eq_true rfl), ih rfl, Cursor.after_after]
    rfl

theorem run_anyCase_of_fold {s : String} (hs : w.map Text.foldChar = s.toList.map Text.foldChar)
    (h : m.rest = w ++ rest) : (anyCase s).run next m = next (m.after w rest) := by
  unfold anyCase
  generalize s.toList = cs at hs
  induction w generalizing m cs with
  | nil =>
    cases List.map_eq_nil_iff.mp hs.symm
    rw [Cursor.after_nil h]
    rfl
  | cons c w ih =>
    obtain ⟨d, cs, rfl, hc, hcs⟩ := List.map_eq_cons_iff.mp hs.symm
    rw [List.foldr_cons, run_seq, run_char h (decide_eq_true hc.symm), ih rfl cs hcs.symm,
      Cursor.after_after]
    rfl

theorem run_anyCase {s : String} (hs : s.toList = w) (h : m.rest = w ++ rest) :
    (anyCase s).run next m = next (m.after w rest) :=
  run_anyCase_of_fold (by rw [hs]) h

theorem run_many_none (ha : ∀ next, a.run next m = none) : (many a).run next m = next m := by
  rw [run]
  cases m.rest with
  | nil => rfl
  | cons c rest =>
    rw [repeated]
    simp only [if_true, ha]
    rfl

theorem run_many_cons (h : m.rest = c :: rest)
    (ha : ∀ next, a.run next m = next (m.after [c] rest)) :
    (many a).run next m = ((many a).run next (m.after [c] rest)).or (next m) := by
  rw [run, h, repeated, if_pos rfl, Option.orElse_eq_or, ha]
  simp only [Cursor.after_position, List.length_singleton, Nat.lt_add_one, if_true]
  rw [run, Cursor.after_rest]

theorem run_few_cons (h : m.rest = c :: rest)
    (ha : ∀ next, a.run next m = next (m.after [c] rest)) :
    (few a).run next m = (next m).or ((few a).run next (m.after [c] rest)) := by
  rw [run, h, repeated, if_neg Bool.false_ne_true, Option.orElse_eq_or, ha]
  simp only [Cursor.after_position, List.length_singleton, Nat.lt_add_one, if_true]
  rw [run, Cursor.after_rest]

/-- The greedy repetition takes all it can, if the rest matches there. -/
theorem run_many (h : m.rest = w ++ rest) (hw : ∀ c ∈ w, p c = true)
    (hrest : ∀ c, rest.head? = some c → p c = false)
    (hnext : (next (m.after w rest)).isSome = true) :
    (many (char p)).run next m = next (m.after w rest) := by
  induction w generalizing m with
  | nil =>
    rw [Cursor.after_nil h]
    exact run_many_none fun _ => run_char_none (by rw [h]; exact hrest)
  | cons c w ih =>
    have hafter : (m.after [c] (w ++ rest)).after w rest = m.after (c :: w) rest :=
      Cursor.after_after
    rw [List.cons_append] at h
    rw [run_many_cons h fun _ => run_char h (hw c (List.mem_cons_self)),
      ih rfl (fun d hd => hw d (List.mem_cons_of_mem _ hd)) (by rw [hafter]; exact hnext), hafter]
    obtain ⟨r, hr⟩ := Option.isSome_iff_exists.mp hnext
    rw [hr, Option.some_or]

/-- The lazy repetition takes as little as it can: it goes on while the rest does not match. -/
theorem run_few {a : Pattern} (h : m.rest = w ++ rest)
    (ha : ∀ (u : List Char) (c : Char) (v : List Char), w = u ++ c :: v → ∀ next,
      a.run next (m.after u (c :: v ++ rest)) = next (m.after (u ++ [c]) (v ++ rest)))
    (hnext : ∀ (u : List Char) (c : Char) (v : List Char), w = u ++ c :: v →
      next (m.after u (c :: v ++ rest)) = none) :
    (few a).run next m = (few a).run next (m.after w rest) := by
  induction w generalizing m with
  | nil => rw [Cursor.after_nil h]
  | cons c w ih =>
    have hafter : ∀ u r, (m.after [c] (w ++ rest)).after u r = m.after (c :: u) r :=
      fun u r => Cursor.after_after
    have hm : m.after [] (c :: w ++ rest) = m := Cursor.after_nil h
    have hstop : next m = none := hm ▸ hnext [] c w rfl
    have hstep : ∀ next, a.run next m = next (m.after [c] (w ++ rest)) := hm ▸ ha [] c w rfl
    rw [List.cons_append] at h
    rw [run_few_cons h hstep, hstop, Option.none_or, ih rfl, hafter]
    · intro u d v hw next
      rw [hafter, hafter]
      exact ha (c :: u) d v (by rw [hw]; rfl) next
    · intro u d v hw
      rw [hafter]
      exact hnext (c :: u) d v (by rw [hw]; rfl)

theorem run_few_of_some (h : next m = some r) : (few a).run next m = some r := by
  rw [run]
  cases m.rest with
  | nil => exact h
  | cons c rest =>
    rw [repeated, if_neg Bool.false_ne_true, h]
    rfl

theorem run_many1 (h : m.rest = w ++ rest) (hne : w ≠ []) (hw : ∀ c ∈ w, p c = true)
    (hrest : ∀ c, rest.head? = some c → p c = false) (hnext : next (m.after w rest) = some r) :
    (many1 (char p)).run next m = some r := by
  obtain ⟨c, w, rfl⟩ := List.exists_cons_of_ne_nil hne
  have hafter : (m.after [c] (w ++ rest)).after w rest = m.after (c :: w) rest := Cursor.after_after
  rw [List.cons_append] at h
  rw [many1, run_seq, run_char h (hw c List.mem_cons_self), ← hnext, ← hafter]
  refine run_many rfl (fun d hd => hw d (List.mem_cons_of_mem _ hd)) hrest ?_
  rw [hafter, hnext]
  rfl

theorem run_alt_left (h : a.run next m = some r) : (alt a b).run next m = some r := by
  rw [run, h]
  rfl

theorem run_alt_right (h : a.run next m = none) : (alt a b).run next m = b.run next m := by
  rw [run, h]
  rfl

theorem run_notAhead (h : a.run some m = none) : (notAhead a).run next m = next m := by
  rw [run, h]
  rfl

theorem run_few1 (h : m.rest = w ++ rest) (hne : w ≠ []) (hw : ∀ c ∈ w, p c = true)
    (hshort : ∀ u v, w = u ++ v → u ≠ [] → v ≠ [] → next (m.after u (v ++ rest)) = none)
    (hnext : next (m.after w rest) = some r) : (few1 (char p)).run next m = some r := by
  obtain ⟨c, w, rfl⟩ := List.exists_cons_of_ne_nil hne
  have hafter : ∀ u l, (m.after [c] (w ++ rest)).after u l = m.after (c :: u) l :=
    fun u l => Cursor.after_after
  rw [List.cons_append] at h
  rw [few1, run_seq, run_char h (hw c List.mem_cons_self), run_few (w := w) rfl, hafter]
  · exact run_few_of_some hnext
  · intro u d v huv next
    rw [run_char rfl (hw d (by simp [huv])), Cursor.after_after]
    rfl
  · intro u d v huv
    rw [hafter]
    exact hshort (c :: u) (d :: v) (by rw [huv]; rfl) nofun nofun

end Run

theorem exists_suffix_of_class {q : Char → Prop} {u w r rest : List Char} {c : Char}
    (h : w ++ c :: rest = u ++ r) (hu : ∀ d ∈ u, q d) (hc : ¬q c) :
    ∃ v, w = u ++ v ∧ r = v ++ c :: rest := by
  obtain ⟨v, rfl, hv⟩ | ⟨v, rfl, hv⟩ := List.append_eq_append_iff.mp h
  · cases v with
    | nil => exact ⟨[], by simp, by simpa using hv.symm⟩
    | cons d v =>
      obtain ⟨rfl, -⟩ := List.cons.inj hv
      exact absurd (hu c (by simp)) hc
  · exact ⟨v, rfl, hv⟩

section None

variable {w rest : List Char} {c : Char}

theorem run_exact_none {s : String} {cs : List Char} (hs : s.toList = c :: cs)
    (h : m.rest.head? ≠ some c) : (exact s).run next m = none := by
  refine run_eq_none fun n hn => absurd ?_ h
  rw [(takes_exact hn).1, hs]
  rfl

theorem run_class_none {a : Pattern} {q : Char → Prop}
    (ha : ∀ n, a.Takes m n → ∃ u, (∀ d ∈ u, q d) ∧ m.Past u n) (h : m.rest = w ++ c :: rest)
    (hc : ¬q c)
    (hnext : ∀ u v, w = u ++ v → next (m.after u (v ++ c :: rest)) = none) :
    a.run next m = none := by
  refine run_eq_none fun n hn => ?_
  obtain ⟨u, hu, hpast⟩ := ha n hn
  obtain ⟨v, rfl, hv⟩ := exists_suffix_of_class (h.symm.trans hpast.1) hu hc
  rw [hpast.2, hv]
  exact hnext u v rfl

theorem run_many_class_none (h : m.rest = w ++ c :: rest) (hc : p c = false)
    (hnext : ∀ u v, w = u ++ v → next (m.after u (v ++ c :: rest)) = none) :
    (many (char p)).run next m = none :=
  run_class_none (fun _ => takes_many) h (by simp [hc]) hnext

theorem run_few1_class_none (h : m.rest = w ++ c :: rest) (hc : p c = false)
    (hnext : ∀ u v, w = u ++ v → next (m.after u (v ++ c :: rest)) = none) :
    (few1 (char p)).run next m = none := by
  refine run_class_none (q := fun d => p d = true) (fun n hn => ?_) h (by simp [hc]) hnext
  obtain ⟨u, -, hu⟩ := takes_few1 hn
  exact ⟨u, hu⟩

theorem run_many1_class_none (h : m.rest = w ++ c :: rest) (hc : p c = false)
    (hnext : ∀ u v, w = u ++ v → next (m.after u (v ++ c :: rest)) = none) :
    (many1 (char p)).run next m = none := by
  refine run_class_none (q := fun d => p d = true) (fun n hn => ?_) h (by simp [hc]) hnext
  obtain ⟨u, -, hu⟩ := takes_many1 takes_char hn
  exact ⟨u, hu⟩

theorem run_anyCase_none {s : String} {d : Char} {cs : List Char} (hs : s.toList = c :: cs)
    (h : m.rest = d :: rest) (hne : Text.foldChar d ≠ Text.foldChar c) :
    (anyCase s).run next m = none := by
  refine run_eq_none fun n hn => absurd ?_ hne
  obtain ⟨w, hw, hpast⟩ := takes_anyCase hn
  rw [hs] at hw
  obtain ⟨x, w, rfl, hx, -⟩ := List.map_eq_cons_iff.mp hw
  rw [hpast.1] at h
  cases h
  exact hx

end None

end Pattern

end ViewTemplate
