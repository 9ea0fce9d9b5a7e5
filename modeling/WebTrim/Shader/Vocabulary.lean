import WebTrim.Text.Basic

/-!
# The vocabulary of the shading language
-/

set_option autoImplicit false

namespace WebTrim.Shader

/-- Names of built-in types. -/
def builtinTypes : List Text :=
  ["void", "bool", "int", "uint", "float", "double", "vec2", "vec3", "vec4", "ivec2", "ivec3",
    "ivec4", "uvec2", "uvec3", "uvec4", "bvec2", "bvec3", "bvec4", "dvec2", "dvec3", "dvec4", "mat2",
    "mat3", "mat4", "mat2x2", "mat2x3", "mat2x4", "mat3x2", "mat3x3", "mat3x4", "mat4x2", "mat4x3",
    "mat4x4", "sampler2D", "sampler3D", "samplerCube", "sampler2DArray", "samplerCubeArray",
    "sampler2DShadow", "samplerCubeShadow", "sampler2DArrayShadow", "isampler2D", "isampler3D",
    "isamplerCube", "isampler2DArray", "usampler2D", "usampler3D", "usamplerCube",
    "usampler2DArray"].map String.toList

/-- Words that are no names; `main` is among them. -/
def keywords : List Text :=
  ["if", "else", "for", "while", "do", "switch", "case", "default", "break", "continue", "return",
    "discard", "struct", "layout", "in", "out", "inout", "uniform", "attribute", "varying", "buffer",
    "shared", "const", "precision", "lowp", "mediump", "highp", "flat", "smooth", "noperspective",
    "centroid", "sample", "invariant", "true", "false", "main"].map String.toList

/-- Words that mark a declaration as part of the shader's interface. -/
def storageQualifiers : List Text :=
  ["uniform", "in", "out", "attribute", "varying", "buffer", "shared"].map String.toList

/-- Words that state a precision. -/
def precisionQualifiers : List Text :=
  ["lowp", "mediump", "highp"].map String.toList

end WebTrim.Shader
