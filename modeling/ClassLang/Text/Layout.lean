/-!
# Layout

The two pieces of layout that source, listings and scripts share.
-/

namespace ClassLang.Text

/-- The start of a line at the given depth: a tab for each level. -/
def indentation (depth : Nat) : String :=
  String.ofList (List.replicate depth '\t')

/-- Texts with a comma and a space between each two. -/
def commaSeparated (texts : List String) : String :=
  ", ".intercalate texts

end ClassLang.Text
