import ShaderPreview.Adapt.Builtins
import ShaderPreview.Adapt.Calls
import ShaderPreview.Adapt.ColorLayouts
import ShaderPreview.Adapt.Entry
import ShaderPreview.Adapt.Loops
import ShaderPreview.Adapt.Textures

/-!
# The stages of adapting a shader

Built-ins are hidden before textures are moved, and textures are moved before annotations are
dropped; calls, loops and the entry function follow.

* `userText`: the shader's text as it stands in the generated program;
* `userTextures`: the textures that the preamble has to declare for it;
* `stages`: the text after each of the six steps.
-/

namespace ShaderPreview

/-- The text after each of the six steps. -/
def stages (d : Dialect) (cs : List Char) : List (List Char) :=
  let hidden := hideBuiltins d cs
  let moved := moveTextures d hidden
  let flat := flattenCalls moved
  let dropped := dropColorLayouts flat
  let counted := countInWholeNumbers dropped
  [hidden, moved, flat, dropped, counted, renameEntry d counted]

/-- The shader's text as it stands in the generated program. -/
def userText (d : Dialect) (cs : List Char) : List Char :=
  renameEntry d (countInWholeNumbers (dropColorLayouts (flattenCalls
    (moveTextures d (hideBuiltins d cs)))))

/-- The textures that the shader declares, once redeclared built-ins are hidden. -/
def userTextures (d : Dialect) (cs : List Char) : List String :=
  textureNames d (hideBuiltins d cs)

/-- The last stage is the text of the generated program. -/
theorem getLast?_stages (d : Dialect) (cs : List Char) :
    (stages d cs).getLast? = some (userText d cs) := rfl

end ShaderPreview
