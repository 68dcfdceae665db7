/-!
# ASCII case

Names are compared with or without regard to the case of ASCII letters.  Letters beyond ASCII are
always compared exactly.
-/

namespace FieldCopy

/-- Whether two texts differ at most in the case of ASCII letters. -/
def sameIgnoringCase (s t : String) : Bool :=
  s.toList.map Char.toLower == t.toList.map Char.toLower

theorem sameIgnoringCase_refl (s : String) : sameIgnoringCase s s = true := by
  simp [sameIgnoringCase]

theorem sameIgnoringCase_comm (s t : String) :
    sameIgnoringCase s t = sameIgnoringCase t s := by
  simp only [sameIgnoringCase]
  exact BEq.comm

end FieldCopy
