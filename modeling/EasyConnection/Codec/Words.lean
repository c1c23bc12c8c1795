import EasyConnection.Codec.Str

/-! # Texts as lines of words

A text is cut into its lines and each line into the words between blanks. What was written with
one blank between words that have none is read back as these words.
-/
namespace EasyConnection.Codec

def words (line : List Char) : List String := (parts [' '] line).map String.ofList

/-- The lines of a text that are not blank, word by word. -/
def wordLines (text : List Char) : List (List String) :=
  ((text.splitOn '\n').map words).filter (· ≠ [])

def IsWord (s : String) : Prop := s ≠ "" ∧ ∀ c ∈ s.toList, isWhitespace c = false

instance (s : String) : Decidable (IsWord s) :=
  decidable_of_iff (s ≠ "" ∧ (s.toList.all fun c => !isWhitespace c) = true) (by simp [IsWord])

section Words
variable {ws : List String}

theorem IsWord.parts {w : String} (h : IsWord w) : parts [' '] w.toList = [w.toList] := by
  refine parts_item (by simpa using h.1) fun c hc => ⟨fun hblank => ?_, h.2 c hc⟩
  have hspace := h.2 c hc
  rw [List.mem_singleton.1 hblank] at hspace
  cases hspace

theorem words_intercalate (h : ∀ w ∈ ws, IsWord w) : words (" ".intercalate ws).toList = ws := by
  rw [String.toList_intercalate, words]
  induction ws with
  | nil => rfl
  | cons w ws ih =>
    obtain ⟨hw, hrest⟩ := List.forall_mem_cons.1 h
    cases ws with
    | nil => simp [hw.parts]
    | cons next ws =>
      have hcut : " ".toList.intercalate ((w :: next :: ws).map String.toList) =
          w.toList ++ ' ' :: " ".toList.intercalate ((next :: ws).map String.toList) := by
        rw [List.map_cons, List.map_cons, List.intercalate_cons_cons, List.append_assoc]
        rfl
      rw [hcut, parts_append_cons (by decide), List.map_append, ih hrest, hw.parts]
      simp

theorem newline_not_mem_intercalate (h : ∀ w ∈ ws, IsWord w) :
    '\n' ∉ (" ".intercalate ws).toList := by
  rw [String.toList_intercalate]
  intro hmem
  rcases mem_intercalate hmem with hsep | ⟨item, hitem, hin⟩
  · exact absurd hsep (by decide)
  · obtain ⟨w, hw, rfl⟩ := List.mem_map.1 hitem
    have hblank := (h w hw).2 _ hin
    cases hblank

theorem wordLines_cut (s rest : List Char) :
    wordLines (s ++ '\n' :: rest) = wordLines s ++ wordLines rest := by
  rw [wordLines, List.splitOn, List.splitOnP_append_cons _ _ (by simp), List.map_append,
    List.filter_append]
  rfl

/-- A text that ends a line is read apart from what follows it. -/
theorem wordLines_append {s : List Char} (h : s.getLast? = some '\n') (rest : List Char) :
    wordLines (s ++ rest) = wordLines s ++ wordLines rest := by
  obtain ⟨t, rfl⟩ := List.getLast?_eq_some_iff.1 h
  rw [List.append_assoc, List.singleton_append, wordLines_cut, wordLines_cut t []]
  exact congrArg (· ++ wordLines rest) (List.append_nil _).symm

theorem wordLines_line {line : List Char} (h : '\n' ∉ line) (hne : words line ≠ []) :
    wordLines line = [words line] := by
  rw [wordLines, List.splitOn_eq_singleton h]
  simp [hne]

end Words

end EasyConnection.Codec
