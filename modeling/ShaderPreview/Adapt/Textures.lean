import ShaderPreview.Dialect.Basic
import ShaderPreview.Uniform.Statement

/-!
# Moving texture declarations

Textures of both AGSL spellings are samplers in GLSL, and the generated preamble declares them.  Each
statement that declares one gives way to a comment.  The mask is declared in any case.

* `Texture.pattern`: the statements that declare textures;
* `textureNames`: the textures to be declared by the preamble, each once;
* `moveTextures`: the text without the statements.
-/

namespace ShaderPreview
namespace Texture

/-- The types of textures. -/
def types : List String := ["shader", "sampler2D"]

/-- The statements that declare textures. -/
def pattern : Pattern Statement :=
  Statement.pattern.filter fun s => types.contains s.type && s.name != ""

/-- The comment that stands for a moved statement. -/
def comment (d : Dialect) (s : Statement) : List Char :=
  if s.name = d.mask then "// built-in mask".toList else "// moved ".toList ++ s.name.toList

end Texture

/-- The names of the declared textures other than the mask, in the order in which they first occur. -/
def textureNames (d : Dialect) (cs : List Char) : List String :=
  ((Texture.pattern.values cs).map Statement.name |>.filter (· != d.mask)).eraseDups

/-- The text with every texture declaration replaced by a comment. -/
def moveTextures (d : Dialect) (cs : List Char) : List Char :=
  Texture.pattern.replace (Texture.comment d) cs

end ShaderPreview
