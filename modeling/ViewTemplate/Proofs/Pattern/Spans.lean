import ViewTemplate.Proofs.Pattern.Matching

namespace ViewTemplate

theorem Found.group_kept {span : Span} {number : Nat} {w r : List Char} {gs : List (Nat × Span)} :
    Found.group ⟨span, (number, ⟨w ++ r, w.length⟩) :: gs⟩ number = String.ofList w := by
  simp [Found.group, Found.group?, Span.text]

theorem Found.group_append {span : Span} {number : Nat} {gs hs : List (Nat × Span)}
    (h : ∀ g ∈ gs, g.1 ≠ number) :
    Found.group ⟨span, gs ++ hs⟩ number = Found.group ⟨span, hs⟩ number := by
  have hnone : gs.find? (fun g => g.1 = number) = none := by simpa using h
  simp [Found.group, Found.group?, hnone]

namespace Cursor

/-- From one place to another a match goes over `w`, and its groups keep `kept`, the latest first.
-/
structure Goes (m : Cursor) (w : List Char) (kept : List (Nat × Span)) (n : Cursor) : Prop where
  rest : m.rest = w ++ n.rest
  position : n.position = m.position + w.length
  groups : n.groups = kept ++ m.groups

variable {m n k : Cursor} {u v w : List Char} {gs hs : List (Nat × Span)}

theorem Past.goes (h : m.Past w n) : m.Goes w [] n := by
  obtain ⟨hrest, hn⟩ := h
  refine ⟨hrest, ?_, ?_⟩
  · rw [hn]
    rfl
  · rw [hn]
    rfl

theorem Goes.refl (m : Cursor) : m.Goes [] [] m := (past_nil m).goes

theorem Goes.trans (hu : m.Goes u gs k) (hv : k.Goes v hs n) : m.Goes (u ++ v) (hs ++ gs) n where
  rest := by rw [hu.rest, hv.rest, List.append_assoc]
  position := by rw [hv.position, hu.position, List.length_append, Nat.add_assoc]
  groups := by rw [hv.groups, hu.groups, List.append_assoc]

theorem Goes.keep (h : m.Goes w gs n) (number : Nat) :
    m.Goes w ((number, ⟨w ++ n.rest, w.length⟩) :: gs) (n.keep number m) where
  rest := h.rest
  position := h.position
  groups := by
    rw [← h.rest, Cursor.keep, h.groups, h.position, Nat.add_sub_cancel_left]
    rfl

end Cursor

namespace Pattern

def avoids (c : Char) : Pattern → Bool
  | char p => !p c
  | seq a b | alt a b => a.avoids c && b.avoids c
  | many a | few a | group _ a => a.avoids c
  | empty | notAhead _ | wordEdge | atEnd => true

/-- The numbers under which the pattern keeps what it takes. -/
def numbers : Pattern → List Nat
  | seq a b | alt a b => a.numbers ++ b.numbers
  | many a | few a => a.numbers
  | group number a => number :: a.numbers
  | empty | char _ | notAhead _ | wordEdge | atEnd => []

variable {a : Pattern} {m n : Cursor}

/-- A match over text without the characters that the pattern avoids, with its groups. -/
def Covers (a : Pattern) (m n : Cursor) : Prop :=
  ∃ w kept, m.Goes w kept n ∧ (∀ c, a.avoids c = true → c ∉ w) ∧ ∀ g ∈ kept, g.1 ∈ a.numbers

theorem Covers.refl (a : Pattern) (m : Cursor) : a.Covers m m :=
  ⟨[], [], .refl m, fun _ _ => List.not_mem_nil, nofun⟩

theorem Covers.trans {a b c : Pattern} {k : Cursor} (ha : a.Covers m k) (hb : b.Covers k n)
    (havoids : ∀ d, c.avoids d = true → a.avoids d = true ∧ b.avoids d = true)
    (hnumbers : a.numbers ⊆ c.numbers ∧ b.numbers ⊆ c.numbers) : c.Covers m n := by
  obtain ⟨u, gs, hu, hunot, hgs⟩ := ha
  obtain ⟨v, hs, hv, hvnot, hhs⟩ := hb
  refine ⟨u ++ v, hs ++ gs, hu.trans hv, fun d hd hmem => ?_, fun g hg => ?_⟩
  · rcases List.mem_append.mp hmem with hmem | hmem
    · exact hunot d (havoids d hd).1 hmem
    · exact hvnot d (havoids d hd).2 hmem
  · rcases List.mem_append.mp hg with hg | hg
    · exact hnumbers.2 (hhs g hg)
    · exact hnumbers.1 (hgs g hg)

theorem covers_star (ha : ∀ {m n}, a.Takes m n → a.Covers m n)
    (h : Relation.ReflTransGen a.Takes m n) : a.Covers m n := by
  induction h with
  | refl => exact .refl a m
  | tail _ hstep ih =>
    exact ih.trans (ha hstep) (fun _ hd => ⟨hd, hd⟩) ⟨List.Subset.refl _, List.Subset.refl _⟩

theorem covers_of_takes : ∀ {a : Pattern} {m n : Cursor}, a.Takes m n → a.Covers m n
  | empty, m, _, rfl | wordEdge, m, _, ⟨rfl, _⟩ | atEnd, m, _, ⟨rfl, _⟩
  | notAhead _, m, _, ⟨rfl, _⟩ => .refl _ m
  | char p, _, _, h => by
    obtain ⟨c, hc, hpast⟩ := takes_char h
    refine ⟨[c], [], hpast.goes, fun d hd hmem => ?_, nofun⟩
    obtain rfl := List.mem_singleton.mp hmem
    rw [avoids, hc] at hd
    cases hd
  | seq a b, _, _, ⟨_, ha, hb⟩ =>
    (covers_of_takes ha).trans (covers_of_takes hb) (fun _ => Bool.and_eq_true_iff.mp)
      ⟨List.subset_append_left .., List.subset_append_right ..⟩
  | alt a b, _, _, h => by
    rcases h with h | h
    · exact (covers_of_takes h).trans (.refl a _) (fun _ hd =>
        ⟨(Bool.and_eq_true_iff.mp hd).1, (Bool.and_eq_true_iff.mp hd).1⟩)
        ⟨List.subset_append_left .., List.subset_append_left ..⟩
    · exact (covers_of_takes h).trans (.refl b _) (fun _ hd =>
        ⟨(Bool.and_eq_true_iff.mp hd).2, (Bool.and_eq_true_iff.mp hd).2⟩)
        ⟨List.subset_append_right .., List.subset_append_right ..⟩
  | many a, m, n, h | few a, m, n, h =>
    have hstar : a.Covers m n := covers_star covers_of_takes h
    hstar
  | group number a, _, _, ⟨_, h, rfl⟩ => by
    obtain ⟨w, gs, hw, havoids, hgs⟩ := covers_of_takes h
    refine ⟨w, _, hw.keep number, havoids, List.forall_mem_cons.mpr ⟨List.mem_cons_self, ?_⟩⟩
    exact fun g hg => List.mem_cons_of_mem _ (hgs g hg)

theorem takes_goes (h : a.Takes m n) (hnone : a.numbers = []) :
    ∃ w, m.Goes w [] n ∧ ∀ c, a.avoids c = true → c ∉ w := by
  obtain ⟨w, gs, hw, havoids, hgs⟩ := covers_of_takes h
  rw [hnone] at hgs
  rw [List.eq_nil_iff_forall_not_mem.mpr fun g hg => List.not_mem_nil (hgs g hg)] at hw
  exact ⟨w, hw, havoids⟩

theorem takes_group_goes {number : Nat} (h : (group number a).Takes m n)
    (hnone : a.numbers = []) :
    ∃ w, m.Goes w [(number, ⟨w ++ n.rest, w.length⟩)] n ∧ ∀ c, a.avoids c = true → c ∉ w := by
  obtain ⟨k, hk, rfl⟩ := h
  obtain ⟨w, hw, havoids⟩ := takes_goes hk hnone
  exact ⟨w, hw.keep number, havoids⟩

section Shortest

variable {p : Char → Bool} {next : Cursor → Option Cursor} {r : Cursor}

theorem repeated_none {step : Matcher} {greedy : Bool} {room : List Char}
    (h : ∀ next, step next m = none) : repeated greedy step next room m = next m := by
  cases room with
  | nil => rfl
  | cons _ room =>
    rw [repeated]
    simp only [h]
    cases greedy with
    | true => rfl
    | false => exact (Option.orElse_eq_or ..).trans Option.or_none

/-- Behind a word of the class the rest matches, and at no place before. -/
def MatchesFirst (p : Char → Bool) (next : Cursor → Option Cursor) (m r : Cursor) : Prop :=
  ∃ w rest, m.rest = w ++ rest ∧ (∀ c ∈ w, p c = true) ∧ next (m.after w rest) = some r ∧
    ∀ u v, w = u ++ v → v ≠ [] → next (m.after u (v ++ rest)) = none

theorem matchesFirst_of_some (h : next m = some r) : MatchesFirst p next m r := by
  refine ⟨[], m.rest, rfl, nofun, ?_, fun u v huv hv => ?_⟩
  · rwa [Cursor.after_nil rfl]
  · exact absurd (List.append_eq_nil_iff.mp huv.symm).2 hv

/-- The lazy repetition stops where the rest matches first. -/
theorem few_shortest (h : (few (char p)).run next m = some r) : MatchesFirst p next m r := by
  obtain ⟨cs, hcs⟩ : ∃ cs, m.rest = cs := ⟨_, rfl⟩
  induction cs generalizing m with
  | nil =>
    rw [run, hcs] at h
    exact matchesFirst_of_some h
  | cons c cs ih =>
    cases hc : p c with
    | false =>
      have hnone : ∀ next, (char p).run next m = none := fun _ => run_char_none (by
        rw [hcs]
        rintro _ ⟨⟩
        exact hc)
      rw [run, repeated_none hnone] at h
      exact matchesFirst_of_some h
    | true =>
      rw [run_few_cons hcs fun _ => run_char hcs hc, Option.or_eq_some_iff] at h
      -- The rest matches here, or it does not and a character is taken.
      rcases h with h | ⟨hnone, h⟩
      · exact matchesFirst_of_some h
      · obtain ⟨w, rest, hrest, hw, hnext, hshort⟩ := ih h rfl
        refine ⟨c :: w, rest, ?_, List.forall_mem_cons.mpr ⟨hc, hw⟩, ?_, fun u v huv hv => ?_⟩
        · rw [hcs]
          exact congrArg (c :: ·) hrest
        · rwa [Cursor.after_after] at hnext
        · cases u with
          | nil =>
            obtain rfl : v = c :: w := huv.symm
            rw [List.cons_append, ← show cs = w ++ rest from hrest, Cursor.after_nil hcs]
            exact hnone
          | cons d u =>
            obtain ⟨rfl, rfl⟩ := List.cons.inj huv
            have hu := hshort u v rfl hv
            rwa [Cursor.after_after] at hu

end Shortest

end Pattern

end ViewTemplate
