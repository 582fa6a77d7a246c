/-
Letter case of host names and record types: only the 26 ASCII letters have two cases here, so every other character is
its own lower and upper form and a text keeps its length.
-/
namespace ZonePlan.Text

/-- a text with its ASCII capitals made small -/
def lower (s : String) : String :=
  String.ofList (s.toList.map Char.toLower)

/-- a text with its small ASCII letters made capital -/
def upper (s : String) : String :=
  String.ofList (s.toList.map Char.toUpper)

end ZonePlan.Text
