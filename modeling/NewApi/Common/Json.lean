import NewApi.Common.Text
import NewApi.Lib.Quoted

/-!
# JSON strings (common/json.go)

`encoding/json` is a parameter: of its strings the code uses that they are quoted and read back as
they were.
-/

namespace NewApi

/-- `Marshal` and `Unmarshal` of `encoding/json` at strings. -/
structure StringCodec where
  marshal : Text → Text
  unmarshal : Text → Option Text
  unmarshal_marshal : ∀ s, unmarshal (marshal s) = some s
  quoted : ∀ s, ∃ body, marshal s = ['"'] ++ body ++ ['"']

def jsonRawMessageToString (J : StringCodec) (data : Text) : Text :=
  let trimmed := trimSpace data
  if trimmed = [] ∨ trimmed = "null".toList then []
  else if trimmed.head? ≠ some '"' then trimmed
  else match J.unmarshal trimmed with
    | none => trimmed
    | some value => value

theorem trimSpace_marshal (J : StringCodec) (s : Text) :
    trimSpace (J.marshal s) = J.marshal s := by
  obtain ⟨body, hbody⟩ := J.quoted s
  rw [hbody]
  exact trimSpace_append body (by decide) (by decide) (by simp) (by simp)

theorem jsonRawMessageToString_marshal (J : StringCodec) (s : Text) :
    jsonRawMessageToString J (J.marshal s) = s := by
  obtain ⟨body, hbody⟩ := J.quoted s
  have hhead : (J.marshal s).head? = some '"' := by rw [hbody]; rfl
  have hnull : ¬ (J.marshal s = [] ∨ J.marshal s = "null".toList) := by
    rintro (h | h) <;> rw [h] at hhead <;> revert hhead <;> decide
  unfold jsonRawMessageToString
  rw [trimSpace_marshal, if_neg hnull, if_neg (not_not.mpr hhead), J.unmarshal_marshal]

def quotedStrings : StringCodec where
  marshal := Quoted.write
  unmarshal := Quoted.read
  unmarshal_marshal := Quoted.read_write
  quoted s := ⟨s.flatMap Quoted.escape, rfl⟩

end NewApi
