import WebTrim.Gate
import WebTrim.Script.Literal
import WebTrim.Shader.Number
import WebTrim.Shader.Rename
import WebTrim.Shader.Spacing

/-!
# Minifying the shaders of a script

A template literal without a hole that looks like a shader is minified: comments, local names,
numbers and white space, each step behind the size gate.
-/

set_option autoImplicit false

namespace WebTrim.Shader

open Text

/-- The minified form of a text that looks like a shader. A backslash anywhere rules it out. -/
def minify? (source : Text) : Option Text :=
  if source.contains '\\' || !looksLikeShader source then none
  else
    let source := Gate.pass stripComments source
    let source := if mayRename source then Gate.pass renameLocals source else source
    some (Gate.pass compactSpacing (Gate.pass shortenNumbers source))

/-- The minified form of a template body, or the body itself. -/
def minifyBody (body : Text) : Text :=
  match minify? body with
  | some short => if short.length < body.length then short else body
  | none => body

/-- The script with its shaders minified. -/
def minifyScript (script : Text) : Text :=
  let ts := Script.tokens script
  let plain := Script.plainTemplates ts
  Token.join (ts.mapIdx fun k t =>
    if plain.contains k then { t with text := minifyBody t.text } else t)

end WebTrim.Shader
