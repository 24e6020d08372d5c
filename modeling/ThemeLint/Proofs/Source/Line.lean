import ThemeLint.Proofs.Bytes
import ThemeLint.Source.Line
import Mathlib.Data.List.DropRight
import Mathlib.Data.List.TakeWhile

namespace ThemeLint.Source

open Bytes

-- Parts that line feeds set apart, without the empty one behind the last line feed.
def terminated (parts : List Bytes) : List Bytes :=
  if parts.getLast? = some [] then parts.dropLast else parts

def physicalLines (content : Bytes) : List Bytes := terminated (partsBy lf content)

def isShort (segment : Bytes) : Bool := segment.length ≤ maxLineLength

theorem terminated_singleton (part : Bytes) :
    terminated [part] = if part = [] then [] else [part] := by
  simp [terminated]

@[simp] theorem terminated_cons_cons (part next : Bytes) (others : List Bytes) :
    terminated (part :: next :: others) = part :: terminated (next :: others) := by
  simp only [terminated, List.getLast?_cons_cons, List.dropLast_cons_cons]
  split <;> rfl

theorem physicalLines_isPrefix (content : Bytes) : physicalLines content <+: partsBy lf content := by
  unfold physicalLines terminated
  split
  · exact List.dropLast_prefix _
  · exact List.prefix_rfl

-- The loop over the bytes, with the segment read so far in front of the first part
-- that is still to come.
theorem segmentsFrom_eq (current rest : Bytes) (finished : List Bytes)
    {part : Bytes} {others : List Bytes} (hparts : partsBy lf rest = part :: others) :
    segmentsFrom current current.length rest finished =
      ⟨finished.reverse ++
          (terminated ((current.reverse ++ part) :: others)).takeWhile isShort,
        (terminated ((current.reverse ++ part) :: others)).all isShort⟩ := by
  induction rest generalizing current finished part others with
  | nil =>
      obtain ⟨rfl, rfl⟩ : [] = part ∧ [] = others := by simpa using hparts
      rw [terminated_singleton]
      by_cases hnil : current = []
      · simp [segmentsFrom, hnil]
      · by_cases hlong : current.length > maxLineLength
        · simp [segmentsFrom, hnil, isShort, hlong, Nat.not_le.mpr hlong]
        · simp [segmentsFrom, hnil, isShort, hlong, Nat.not_lt.mp hlong]
  | cons b rest ih =>
      obtain ⟨next, more, hnext⟩ := partsBy_eq_cons lf rest
      by_cases hb : b = lf
      · subst hb
        obtain ⟨rfl, rfl⟩ : [] = part ∧ next :: more = others := by
          simpa [hnext] using hparts
        by_cases hlong : current.length > maxLineLength
        · simp [segmentsFrom, isShort, hlong, Nat.not_le.mpr hlong]
        · have h := ih [] (current.reverse :: finished) hnext
          simp only [List.length_nil] at h
          simp [segmentsFrom, isShort, hlong, Nat.not_lt.mp hlong, h]
      · obtain ⟨rfl, rfl⟩ : b :: next = part ∧ more = others := by
          simpa [partsBy_cons_of_ne hb hnext] using hparts
        have h := ih (b :: current) finished hnext
        simp only [List.length_cons] at h
        simp [segmentsFrom, hb, h]

-- Splitting gives the physical lines before the first that is too long, and is
-- complete when there is no such line.
theorem segments_eq (content : Bytes) :
    segments content =
      ⟨(physicalLines content).takeWhile isShort, (physicalLines content).all isShort⟩ := by
  obtain ⟨part, others, h⟩ := partsBy_eq_cons lf content
  have hfrom := segmentsFrom_eq [] content [] h
  simpa [segments, physicalLines, h] using hfrom

theorem segments_lines {content : Bytes} (h : (segments content).complete = true) :
    (segments content).lines = physicalLines content := by
  rw [segments_eq] at h ⊢
  exact List.takeWhile_eq_self_iff.mpr (List.all_eq_true.mp h)

theorem trimStart_of_ascii {a : UInt8} (h : isAsciiSpace a = true) (rest : Bytes) :
    trimStart (a :: rest) = trimStart rest := by
  conv_lhs => unfold trimStart
  simp [h]

theorem trimStart_of_wide2 {a b : UInt8} (ha : ¬isAsciiSpace a = true)
    (hab : isWideSpace2 a b = true) (rest : Bytes) :
    trimStart (a :: b :: rest) = trimStart rest := by
  conv_lhs => unfold trimStart
  simp [ha, hab]

-- A carriage return completes no wide space, so it only adds to what trimming leaves.
theorem trimStart_append_cr (text : Bytes) :
    trimStart (text ++ [cr]) = if trimStart text = [] then [] else trimStart text ++ [cr] := by
  have hcr : isAsciiSpace cr = true := by decide
  have hwide2 (a : UInt8) : isWideSpace2 a cr = false := by simp [isWideSpace2, cr]
  have hwide3 (a b : UInt8) : isWideSpace3 a b cr = false := by simp [isWideSpace3, cr]
  fun_induction trimStart text with
  | case1 => simp [trimStart, hcr]
  | case2 a rest ha ih => simpa [trimStart_of_ascii ha] using ih
  | case3 a ha => simp [trimStart, ha, hwide2]
  | case4 a ha b rest hab ih => simpa [trimStart_of_wide2 ha hab] using ih
  | case5 a ha b hab => simp [trimStart, ha, hab, hwide3]
  | case6 a ha b hab c rest habc ih => simpa [trimStart, ha, hab, habc] using ih
  | case7 a ha b hab c rest habc => simp [trimStart, ha, hab, habc]

theorem isAllSpace_append_cr (text : Bytes) : isAllSpace (text ++ [cr]) = isAllSpace text := by
  unfold isAllSpace
  rw [Bool.eq_iff_iff, List.isEmpty_iff, List.isEmpty_iff, trimStart_append_cr]
  by_cases h : trimStart text = [] <;> simp [h]

theorem startsWith_append_cr {marker text : Bytes} (h : cr ∉ marker) :
    startsWith marker (text ++ [cr]) = startsWith marker text := by
  rw [Bool.eq_iff_iff, startsWith_iff, startsWith_iff, List.prefix_concat_iff]
  constructor
  · rintro (rfl | hp)
    · simp at h
    · exact hp
  · exact Or.inr

-- Carriage returns at its end do not make a line a comment, nor keep it from being one.
theorem isComment_append_cr (text : Bytes) : isComment (text ++ [cr]) = isComment text := by
  unfold isComment
  rw [trimStart_append_cr]
  by_cases hnil : trimStart text = []
  · simp [hnil]
  · obtain ⟨b, rest, hrest⟩ := List.exists_cons_of_ne_nil hnil
    simp only [hrest, reduceCtorEq, if_false]
    rw [startsWith_append_cr (by decide), startsWith_append_cr (by decide),
      startsWith_append_cr (by decide)]
    have hstar : (isAllSpace (rest ++ [cr]) ||
          (rest ++ [cr]).head?.any fun c => c == space || c == tab || c == byte '/') =
        (isAllSpace rest || rest.head?.any fun c => c == space || c == tab || c == byte '/') := by
      rw [isAllSpace_append_cr]
      cases rest with
      | nil => simp [isAllSpace, trimStart]
      | cons c rest => simp
    simp only [List.cons_append, hstar]

theorem dropReturn_append_cr (text : Bytes) : dropReturn (text ++ [cr]) = text := by
  simp [dropReturn]

theorem dropReturn_cases (text : Bytes) :
    dropReturn text = text ∨ text = dropReturn text ++ [cr] := by
  cases text using List.reverseRecOn with
  | nil => exact .inl rfl
  | append_singleton text b =>
      by_cases hb : b = cr
      · subst hb
        exact .inr (by rw [dropReturn_append_cr])
      · exact .inl (by simp [dropReturn, hb])

theorem dropReturn_isPrefix (text : Bytes) : dropReturn text <+: text := by
  rcases dropReturn_cases text with h | h
  · exact ⟨[], by rw [List.append_nil, h]⟩
  · exact ⟨[cr], h.symm⟩

theorem isComment_dropReturn (text : Bytes) : isComment (dropReturn text) = isComment text := by
  rcases dropReturn_cases text with h | h
  · rw [h]
  · rw [← isComment_append_cr, ← h]

theorem lineText_isPrefix (segment : Bytes) : lineText segment <+: segment :=
  (dropReturn_isPrefix _).trans (dropReturn_isPrefix _)

theorem isComment_rdropWhile_cr (text : Bytes) :
    isComment (text.rdropWhile (· == cr)) = isComment text := by
  induction text using List.reverseRecOn with
  | nil => rfl
  | append_singleton text b ih =>
      by_cases hb : b = cr
      · subst hb
        rw [List.rdropWhile_concat_pos _ _ _ (by simp), isComment_append_cr, ih]
      · rw [List.rdropWhile_concat_neg _ _ _ (by simpa using hb)]

-- What is checked of a segment is a comment exactly if the segment is one, however
-- many carriage returns are taken from its end.
theorem isComment_lineText (segment : Bytes) :
    isComment (lineText segment) = isComment (segment.rdropWhile (· == cr)) := by
  rw [lineText, isComment_dropReturn, isComment_dropReturn, isComment_rdropWhile_cr]

end ThemeLint.Source
