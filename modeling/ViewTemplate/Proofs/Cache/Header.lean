import Mathlib.Data.List.TakeWhile
import ViewTemplate.Artifact

namespace ViewTemplate.Artifact

variable {code : List Char}

theorem toList_ofCode : (ofCode code).toList = header.toList ++ '\n' :: code := by
  simp only [ofCode, String.toList_append, String.toList_ofList, String.reduceToList,
    List.append_assoc, List.cons_append, List.nil_append]

theorem header_noLine : ∀ c ∈ header.toList, decide (c ≠ '\n') = true :=
  List.all_eq_true.mp (by decide +kernel)

theorem firstLine_ofCode : firstLine (ofCode code).toList = header.toList := by
  rw [firstLine, toList_ofCode, List.takeWhile_append_of_pos header_noLine]
  simp

theorem isCurrentHeader_header : isCurrentHeader header.toList = true := by decide +kernel

theorem code_ofCode (path : Path) :
    Artifact.code (ofCode code) path = .ok (String.ofList code) := by
  have hafter : afterFirstLine (ofCode code).toList = code := by
    rw [afterFirstLine, toList_ofCode, List.dropWhile_append_of_pos header_noLine]
    simp
  rw [Artifact.code, firstLine_ofCode, if_pos isCurrentHeader_header, hafter]

/-- A first line is the header of the engine exactly when it is that text with carriage returns
behind it. -/
theorem isCurrentHeader_iff {line : List Char} : isCurrentHeader line = true ↔
    ∃ n, line = header.toList ++ List.replicate n '\r' := by
  rw [isCurrentHeader, decide_eq_true_iff, Text.dropEndWhile]
  constructor
  · intro h
    obtain ⟨n, hreturns⟩ : ∃ n, line.reverse.takeWhile (fun c => decide (c = '\r')) =
        List.replicate n '\r' :=
      ⟨_, List.eq_replicate_of_mem fun c hc => by simpa using List.mem_takeWhile_imp hc⟩
    refine ⟨n, ?_⟩
    calc line
        = (line.reverse.takeWhile (fun c => decide (c = '\r')) ++
            line.reverse.dropWhile (fun c => decide (c = '\r'))).reverse := by
          rw [List.takeWhile_append_dropWhile, List.reverse_reverse]
      _ = header.toList ++ List.replicate n '\r' := by
          rw [List.reverse_append, h, hreturns, List.reverse_replicate]
  · rintro ⟨n, rfl⟩
    have hlast : header.toList.reverse.dropWhile (fun c => decide (c = '\r')) =
        header.toList.reverse := by decide +kernel
    rw [List.reverse_append, List.reverse_replicate, List.dropWhile_append_of_pos, hlast,
      List.reverse_reverse]
    exact fun c hc => decide_eq_true (List.eq_of_mem_replicate hc)

theorem noLine_headerLine {n : Nat} :
    ∀ c ∈ header.toList ++ List.replicate n '\r', decide (c ≠ '\n') = true := by
  intro c hc
  rcases List.mem_append.1 hc with hc | hc
  · exact header_noLine c hc
  · rw [List.eq_of_mem_replicate hc]
    decide

/-- The code of a text is what stands behind the header line, which may be all there is. -/
theorem code_ok_iff {text code : String} {path : Path} : Artifact.code text path = .ok code ↔
    ∃ n, text.toList = header.toList ++ List.replicate n '\r' ∧ code = "" ∨
      text.toList = header.toList ++ List.replicate n '\r' ++ '\n' :: code.toList := by
  unfold Artifact.code firstLine afterFirstLine
  constructor
  · intro h
    split at h
    · rename_i hheader
      obtain ⟨n, hn⟩ := isCurrentHeader_iff.1 hheader
      have hparts := List.takeWhile_append_dropWhile (p := fun c => decide (c ≠ '\n'))
        (l := text.toList)
      rw [hn] at hparts
      cases h
      refine ⟨n, ?_⟩
      -- Without a line feed the header is all there is.
      cases hrest : text.toList.dropWhile (fun c => decide (c ≠ '\n')) with
      | nil =>
        rw [hrest, List.append_nil] at hparts
        exact .inl ⟨hparts.symm, rfl⟩
      | cons c rest =>
        have hc : c = '\n' := by
          have hhead := List.head?_dropWhile_not (fun c => decide (c ≠ '\n')) text.toList
          rw [hrest] at hhead
          simpa using hhead
        rw [hrest, hc] at hparts
        exact .inr (hparts.symm.trans (by simp))
    · cases h
  · rintro ⟨n, ⟨htext, rfl⟩ | htext⟩
    · rw [htext, List.takeWhile_eq_self_iff.2 noLine_headerLine,
        if_pos (isCurrentHeader_iff.2 ⟨n, rfl⟩), List.dropWhile_eq_nil_iff.2 noLine_headerLine]
      rfl
    · rw [htext, List.takeWhile_append_of_pos noLine_headerLine,
        List.dropWhile_append_of_pos noLine_headerLine]
      simp [isCurrentHeader_iff.2 ⟨n, rfl⟩]

end ViewTemplate.Artifact
