import Mathlib.Data.List.Basic
import Mathlib.Data.String.Basic

/-!
# The pieces of a text

`String.splitOn` walks through a text by byte positions, which is a recursion that does not compute. With a
single character as the separator it cuts the characters of the text as `List.splitOn` does (`splitOn_eq`),
and that computes.
-/

set_option autoImplicit false

namespace ForeignDecl.Text

open String (utf8Len)
open String.Pos.Raw (atEnd get next extract)

/-- Nothing is left to be read exactly at the end. -/
theorem atEnd_iff_of_valid (l r : List Char) :
    atEnd (String.ofList (l ++ r)) ⟨utf8Len l⟩ ↔ r = [] := by
  rw [String.atEnd_iff, String.rawEndPos_ofList, String.utf8Len_append, String.Pos.Raw.mk_le_mk,
    ← String.utf8Len_eq_zero]
  omega

/-- The position behind a character. -/
theorem next_of_valid (l r : List Char) (x : Char) :
    next (String.ofList (l ++ x :: r)) ⟨utf8Len l⟩ = ⟨utf8Len (l ++ [x])⟩ := by
  rw [String.next_of_valid, String.utf8Len_append, String.utf8Len_cons, String.utf8Len_nil,
    Nat.zero_add]

/-- The pieces behind those that were found, where `m` is what the next one begins with. -/
theorem splitOnAux_of_valid (c : Char) (l m r : List Char) (found : List String) :
    String.splitOnAux (String.ofList (l ++ m ++ r)) (String.ofList [c]) ⟨utf8Len l⟩
        ⟨utf8Len (l ++ m)⟩ 0 found =
      found.reverse ++ (r.splitOnPPrepend (· == c) m.reverse).map String.ofList := by
  have hpiece : extract (String.ofList (l ++ m ++ r)) ⟨utf8Len l⟩ ⟨utf8Len (l ++ m)⟩ =
      String.ofList m := by
    rw [String.utf8Len_append]
    exact String.extract_of_valid l m r
  rw [String.splitOnAux]
  cases r with
  | nil =>
    rw [if_pos ((atEnd_iff_of_valid (l ++ m) []).2 rfl), hpiece]
    simp
  | cons x r =>
    have hmore : ¬ atEnd (String.ofList (l ++ m ++ x :: r)) ⟨utf8Len (l ++ m)⟩ :=
      fun hend => List.cons_ne_nil x r ((atEnd_iff_of_valid (l ++ m) (x :: r)).1 hend)
    have hget : get (String.ofList (l ++ m ++ x :: r)) ⟨utf8Len (l ++ m)⟩ = x :=
      String.get_of_valid (l ++ m) (x :: r)
    -- The separator is compared from its start, and one character further it is at its end.
    have hsep : get (String.ofList [c]) 0 = c := String.get_of_valid [] [c]
    have hsepNext : next (String.ofList [c]) 0 = ⟨utf8Len [c]⟩ := next_of_valid [] [] c
    have hsepEnd : atEnd (String.ofList [c]) ⟨utf8Len [c]⟩ := (atEnd_iff_of_valid [c] []).2 rfl
    have hstay : (⟨utf8Len (l ++ m)⟩ : String.Pos.Raw).unoffsetBy 0 = ⟨utf8Len (l ++ m)⟩ := rfl
    rw [if_neg hmore, hget, hsep, hsepNext, hstay, next_of_valid (l ++ m) r x]
    dsimp only
    rw [if_pos hsepEnd, List.splitOnPPrepend_cons_eq_if]
    split
    · next heq =>
      obtain rfl : x = c := eq_of_beq heq
      have hback : (⟨utf8Len (l ++ m ++ [x])⟩ : String.Pos.Raw).unoffsetBy ⟨utf8Len [x]⟩ =
          ⟨utf8Len (l ++ m)⟩ := by
        rw [String.utf8Len_append]
        exact congrArg String.Pos.Raw.mk (Nat.add_sub_cancel _ _)
      have hrest := splitOnAux_of_valid x (l ++ m ++ [x]) [] r (String.ofList m :: found)
      rw [hback, hpiece]
      simpa using hrest
    · have hrest := splitOnAux_of_valid c l (m ++ [x]) r found
      simpa using hrest
termination_by r.length

/-- **A text is cut at a character as the list of its characters is.** -/
theorem splitOn_eq (s : String) (c : Char) :
    s.splitOn (String.ofList [c]) = (s.toList.splitOn c).map String.ofList := by
  have haux := splitOnAux_of_valid c [] [] s.toList []
  rw [String.splitOn, if_neg (by simp)]
  simpa [List.splitOn] using haux

/-- The first piece ends at the first separator. -/
theorem splitOn_append {c : Char} {a : String} (ha : c ∉ a.toList) (s : String) :
    (a ++ String.ofList [c] ++ s).splitOn (String.ofList [c]) =
      a :: s.splitOn (String.ofList [c]) := by
  have hlist : (a ++ String.ofList [c] ++ s).toList = a.toList ++ c :: s.toList := by simp
  rw [splitOn_eq, splitOn_eq, hlist, List.splitOn_append_cons_self_of_not_mem ha, List.map_cons,
    String.ofList_toList]

theorem splitOn_ne_nil (s : String) (c : Char) : s.splitOn (String.ofList [c]) ≠ [] := by
  rw [splitOn_eq]
  simp

end ForeignDecl.Text
