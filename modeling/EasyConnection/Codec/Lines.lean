import Mathlib.Data.List.Basic

/-! # The head of a message

A reader of a head may take a carriage return, a line feed or the two together as the end of a
line; the head ends with the first line that is empty.
-/
namespace EasyConnection.Codec

/-- The lines of a text, the first of which has begun already. -/
def cutFrom : List Char → List Char → List (List Char)
  | line, [] => [line]
  | line, '\r' :: '\n' :: s => line :: cutFrom [] s
  | line, '\r' :: s => line :: cutFrom [] s
  | line, '\n' :: s => line :: cutFrom [] s
  | line, c :: s => cutFrom (line ++ [c]) s

def headLines (s : String) : List String :=
  ((cutFrom [] s.toList).takeWhile fun line => decide (line ≠ [])).map String.ofList

example : headLines "a: b\r\nc\rd\ne\n\r\nf" = ["a: b", "c", "d", "e"] := by decide

/-- The text of a head: each line and its end, and the empty line. -/
def headText : List String → String
  | [] => "\r\n"
  | line :: lines => line ++ ("\r\n" ++ headText lines)

def OneLine (s : String) : Prop := '\r' ∉ s.toList ∧ '\n' ∉ s.toList

instance (s : String) : Decidable (OneLine s) := inferInstanceAs (Decidable (_ ∧ _))

variable {a b : String}

@[simp] theorem oneLine_append : OneLine (a ++ b) ↔ OneLine a ∧ OneLine b := by
  simp only [OneLine, String.toList_append, List.mem_append, not_or]
  exact and_and_and_comm

/-- A line that does not end the head. -/
def IsLine (s : String) : Prop := s ≠ "" ∧ OneLine s

instance (s : String) : Decidable (IsLine s) := inferInstanceAs (Decidable (_ ∧ _))

theorem IsLine.append (ha : IsLine a) (hb : OneLine b) : IsLine (a ++ b) := by
  refine ⟨fun h => ha.1 ?_, oneLine_append.2 ⟨ha.2, hb⟩⟩
  have hchars := congrArg String.toList h
  rw [String.toList_append, String.toList_empty, List.append_eq_nil_iff] at hchars
  exact String.toList_eq_nil_iff.1 hchars.1

theorem oneLine_of_forall {p : Char → Bool} (hcr : p '\r' = true) (hlf : p '\n' = true)
    (h : ∀ c ∈ a.toList, p c = false) : OneLine a := by
  constructor
  · intro hmem
    rw [h _ hmem] at hcr
    cases hcr
  · intro hmem
    rw [h _ hmem] at hlf
    cases hlf

theorem cutFrom_line (h : OneLine a) (line s : List Char) :
    cutFrom line (a.toList ++ '\r' :: '\n' :: s) = (line ++ a.toList) :: cutFrom [] s := by
  obtain ⟨hcr, hlf⟩ := h
  generalize a.toList = l at hcr hlf
  induction l generalizing line with
  | nil => rw [List.nil_append, List.append_nil, cutFrom]
  | cons c l ih =>
    rw [List.mem_cons, not_or] at hcr hlf
    have hstep : cutFrom line (c :: (l ++ '\r' :: '\n' :: s)) =
        cutFrom (line ++ [c]) (l ++ '\r' :: '\n' :: s) := by
      rw [cutFrom]
      · exact fun _ h => absurd h.symm hcr.1
      · exact fun h => absurd h.symm hcr.1
      · exact fun h => absurd h.symm hlf.1
    rw [List.cons_append, hstep, ih _ hcr.2 hlf.2, List.append_assoc, List.singleton_append]

/-- Lines without a line break are read as they are written, and what follows the head is not. -/
theorem headLines_headText {lines : List String} (h : ∀ line ∈ lines, IsLine line)
    (rest : String) : headLines (headText lines ++ rest) = lines := by
  induction lines with
  | nil =>
    have hcut : cutFrom [] (headText [] ++ rest).toList = [] :: cutFrom [] rest.toList := by
      rw [headText, String.toList_append]
      rfl
    rw [headLines, hcut]
    rfl
  | cons line lines ih =>
    rw [List.forall_mem_cons] at h
    obtain ⟨⟨hne, hline⟩, h⟩ := h
    have hcut : cutFrom [] (headText (line :: lines) ++ rest).toList =
        line.toList :: cutFrom [] (headText lines ++ rest).toList := by
      rw [headText, String.append_assoc, String.append_assoc, String.toList_append,
        String.toList_append]
      exact cutFrom_line hline [] _
    have hchars : line.toList ≠ [] := fun hnil => hne (String.toList_eq_nil_iff.1 hnil)
    rw [headLines, hcut, List.takeWhile_cons, if_pos (decide_eq_true hchars), List.map_cons,
      String.ofList_toList]
    exact congrArg _ (ih h)

theorem headLines_head {lines : List String} (h : ∀ line ∈ lines, IsLine line) :
    headLines (headText lines) = lines := by
  have hrest := headLines_headText h ""
  rwa [String.append_empty] at hrest

end EasyConnection.Codec
