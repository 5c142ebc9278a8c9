/-!
# Lines

A text is its lines joined by newlines; generated code is made of lines that each end in one.

* `Text.newlines`: the number of newlines of a text;
* `Text.lines`: the lines of a text, split at every newline;
* `Text.dropLines`: the text after its first lines;
* `Text.unlines`: lines laid out one below the other, each ended by a newline.
-/

namespace ShaderPreview
namespace Text

/-- The number of newlines of a text. -/
def newlines (cs : List Char) : Nat :=
  cs.count '\n'

/-- The lines of a text: one more than it has newlines. -/
def lines (cs : List Char) : List (List Char) :=
  cs.splitOn '\n'

/-- The text after its first `n` lines, empty if there are not as many. -/
def dropLines (n : Nat) (cs : List Char) : List Char :=
  ['\n'].intercalate ((lines cs).drop n)

/-- Lines one below the other, each ended by a newline. -/
def unlines : List String → String
  | [] => ""
  | l :: ls => l ++ "\n" ++ unlines ls

@[simp] theorem newlines_nil : newlines [] = 0 := rfl

@[simp] theorem newlines_append (a b : List Char) : newlines (a ++ b) = newlines a + newlines b :=
  List.count_append

@[simp] theorem unlines_nil : unlines [] = "" := rfl

@[simp] theorem unlines_cons (l : String) (ls : List String) :
    unlines (l :: ls) = l ++ "\n" ++ unlines ls := rfl

end Text
end ShaderPreview
