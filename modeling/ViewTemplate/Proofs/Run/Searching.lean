import ViewTemplate.Proofs.Value.KeyOrder
import ViewTemplate.Run.Function
import ViewTemplate.Run.Operator

namespace ViewTemplate.Run

theorem distinctKeys_of_mem_elements {h e : Value} (hh : DistinctKeys h) (he : e ∈ elements h) :
    DistinctKeys e := by
  cases hh with
  | scalar hs =>
    cases h with
    | list | map => cases hs
    | _ => cases he
  | list hitems => exact hitems e he
  | map _ hentries =>
    obtain ⟨p, hp, rfl⟩ := List.mem_map.1 he
    exact hentries p hp

theorem inArray_eq {h : Value} (harray : h.isArray = true) (n : Value) (rest : List Value) :
    inArray (n :: h :: rest) = .ok (.bool ((elements h).any fun e =>
      if (argument rest 0).truthy then e.same n else e.looseEq n)) := by
  have hargument : argument (n :: h :: rest) 1 = h := rfl
  simp only [inArray, hargument, harray]
  rfl

/-- A search of an array ends with a truth value. Without the third argument it is true exactly when
an element is equal to the needle by the operator. With it, it is true exactly when an element is
identical to the needle once the entries of all maps in both stand in the order of their keys: so it
is true when an element is identical to the needle, and only then if no map in the needle has two
entries or more. -/
theorem inArray_finds {n h : Value} (hn : DistinctKeys n) (hh : DistinctKeys h)
    (harray : h.isArray = true) :
    ∃ loose strict, inArray [n, h] = .ok (.bool loose) ∧
      inArray [n, h, .bool true] = .ok (.bool strict) ∧
      (loose = true ↔ ∃ e ∈ elements h, binary .eq e n = .ok (.bool true)) ∧
      (strict = true ↔ ∃ e ∈ elements h,
        binary .identical e.inKeyOrder n.inKeyOrder = .ok (.bool true)) ∧
      ((∃ e ∈ elements h, binary .identical e n = .ok (.bool true)) → strict = true) ∧
      (n.FixedOrder → strict = true →
        ∃ e ∈ elements h, binary .identical e n = .ok (.bool true)) := by
  have hok {p : Bool} : (.ok (.bool p) : Except OperatorError Value) = .ok (.bool true) ↔
      p = true := by simp
  refine ⟨_, _, inArray_eq harray n [], inArray_eq harray n [.bool true], ?_, ?_, ?_, ?_⟩
  · exact List.any_eq_true.trans (by simp [binary, argument, Value.truthy])
  · refine List.any_eq_true.trans ⟨?_, ?_⟩
    · rintro ⟨e, he, hsame⟩
      exact ⟨e, he, hok.2
        (Value.same_eq_identical (distinctKeys_of_mem_elements hh he) hn ▸ hsame)⟩
    · rintro ⟨e, he, hidentical⟩
      exact ⟨e, he, (Value.same_eq_identical (distinctKeys_of_mem_elements hh he) hn).trans
        (hok.1 hidentical)⟩
  · rintro ⟨e, he, hidentical⟩
    exact List.any_eq_true.2 ⟨e, he,
      Value.same_of_identical (distinctKeys_of_mem_elements hh he) hn (hok.1 hidentical)⟩
  · intro hfixed hstrict
    obtain ⟨e, he, hsame⟩ := List.any_eq_true.1 hstrict
    exact ⟨e, he, hok.2 (Value.identical_of_same hfixed hsame)⟩

/-- A list in a list of lists. -/
theorem inArray_finds_list :
    let n : Value := .list [.int 1, .string "2"]
    let h : Value := .list [.null, .list [.int 1, .string "2"]]
    DistinctKeys n ∧ DistinctKeys h ∧ h.isArray = true ∧
      inArray [n, h, .bool true] = .ok (.bool true) := by
  intro n h
  have hn : DistinctKeys n := .list_of_scalars (by decide)
  have hh : DistinctKeys h := by
    refine .list fun v hv => ?_
    rcases List.mem_cons.1 hv with rfl | hv
    · exact .scalar rfl
    · rw [List.mem_singleton.1 hv]
      exact hn
  obtain ⟨-, strict, -, hrun, -, -, hfound, -⟩ := inArray_finds hn hh rfl
  have hstrict : strict = true := hfound ⟨n, .tail _ (.head _), rfl⟩
  exact ⟨hn, hh, rfl, by rw [hrun, hstrict]⟩

/-- The strict search finds a map whose entries stand in another order, and no element is identical
to it. -/
theorem not_inArray_finds :
    let n : Value := .map [("x", .int 1), ("y", .int 2)]
    let h : Value := .list [.map [("y", .int 2), ("x", .int 1)]]
    h.isArray = true ∧ inArray [n, h, .bool true] = .ok (.bool true) ∧
      ¬∃ e ∈ elements h, binary .identical e n = .ok (.bool true) := by
  intro n h
  refine ⟨rfl, rfl, ?_⟩
  rintro ⟨e, he, hidentical⟩
  rw [List.mem_singleton.1 he] at hidentical
  cases hidentical

end ViewTemplate.Run
