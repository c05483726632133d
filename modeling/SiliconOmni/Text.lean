import Mathlib.Data.List.DropRight
import Mathlib.Tactic.Common

/-! White space, and text without it at its ends. -/
namespace SiliconOmni

/-- The characters that Unicode calls white space. -/
def whiteSpace (c : Char) : Bool :=
  let n := c.toNat
  (9 ≤ n && n ≤ 13) || n = 0x20 || n = 0x85 || n = 0xA0 || n = 0x1680 ||
    (0x2000 ≤ n && n ≤ 0x200A) || n = 0x2028 || n = 0x2029 || n = 0x202F || n = 0x205F || n = 0x3000

def trimEnd (text : String) : String := .ofList (text.toList.reverse.dropWhile whiteSpace).reverse

def trimStart (text : String) : String := .ofList (text.toList.dropWhile whiteSpace)

def trim (text : String) : String := trimEnd (trimStart text)

theorem trimEnd_toList (text : String) :
    (trimEnd text).toList = text.toList.rdropWhile whiteSpace := String.toList_ofList

theorem trimEnd_trimEnd (text : String) : trimEnd (trimEnd text) = trimEnd text := by
  apply String.toList_inj.mp
  rw [trimEnd_toList, trimEnd_toList, List.rdropWhile_idempotent]

theorem trimEnd_newline (line : String) : trimEnd (line ++ "\n") = trimEnd line := by
  apply String.toList_inj.mp
  have hnewline : (line ++ "\n").toList = line.toList ++ ['\n'] := String.toList_append
  rw [trimEnd_toList, trimEnd_toList, hnewline, List.rdropWhile_concat_pos _ _ _ (by decide)]

theorem trim_empty {line : String} (h : trimEnd line = "") : trim line = "" := by
  have hblank : ∀ c ∈ line.toList, whiteSpace c := by
    rw [← List.rdropWhile_eq_nil_iff, ← trimEnd_toList, h]
    rfl
  have hstart : trimStart line = "" := by
    rw [trimStart, List.dropWhile_eq_nil_iff.mpr hblank, String.ofList_nil]
  rw [trim, hstart]
  rfl

end SiliconOmni
