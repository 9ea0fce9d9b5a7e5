import WebTrim.Failure

/-!
# From OKLCH to sRGB

Colours given by lightness, chroma and hue are turned into red, green and blue channels between zero
and one, and those into hexadecimal notation. All arithmetic is on doubles.
-/

set_option autoImplicit false

namespace WebTrim.Color

open Text

/-- The power of a double. A finite base whose power is out of range is an overflow. -/
def power (base exponent : Float) : Except Crash Float :=
  let r := Float.pow base exponent
  if r.isInf && base.isFinite then .error .overflow else .ok r

/-- The ratio of a circle's circumference to its diameter. -/
def pi : Float :=
  3.141592653589793

/-- Sine and cosine of an angle in degrees, which must not be infinite. -/
def sinCosDegrees (degrees : Float) : Except Crash (Float × Float) :=
  let angle := degrees * (pi / 180.0)
  if angle.isInf then .error .domain else .ok (angle.sin, angle.cos)

/-- Linear red, green and blue of a colour; they may lie outside the range from zero to one. -/
def linear (lightness chroma hue : Float) : Except Crash (Float × Float × Float) := do
  let (sin, cos) ← sinCosDegrees hue
  let a := chroma * cos
  let b := chroma * sin
  let l ← power (lightness + 0.3963377774 * a + 0.2158037573 * b) 3.0
  let m ← power (lightness - 0.1055613458 * a - 0.0638541728 * b) 3.0
  let s ← power (lightness - 0.0894841775 * a - 1.2914855480 * b) 3.0
  return (4.0767416621 * l - 3.3077115913 * m + 0.2309699292 * s,
    -1.2684380046 * l + 2.6097574011 * m - 0.3413193965 * s,
    -0.0041960863 * l - 0.7034186147 * m + 1.7076147010 * s)

/-- The value moved into the range from zero to one. What is not a number counts as zero. -/
def clamp (v : Float) : Float :=
  let v := if v > 0.0 then v else 0.0
  if v < 1.0 then v else 1.0

/-- The gamma-encoded value of a linear channel. -/
def encodeGamma (channel : Float) : Except Crash Float :=
  if channel ≤ 0.0031308 then .ok (12.92 * channel)
  else do return 1.055 * (← power channel (1.0 / 2.4)) - 0.055

/-- The linear value of a gamma-encoded channel. -/
def decodeGamma (channel : Float) : Except Crash Float :=
  if channel ≤ 0.04045 then .ok (channel / 12.92)
  else power ((channel + 0.055) / 1.055) 2.4

/-- How far a channel may lie outside its range and still count as inside. -/
def tolerance : Float :=
  1e-6

/-- Does a linear channel lie outside its range? -/
def isOutside (channel : Float) : Bool :=
  channel < -tolerance || channel > 1.0 + tolerance

/-- Red, green and blue of a colour, unless it cannot be shown. -/
def srgb? (lightness chroma hue : Float) : Except Crash (Option (List Float)) := do
  let (r, g, b) ← linear lightness chroma hue
  if [r, g, b].any isOutside then return none
  return some (← [r, g, b].mapM fun channel => encodeGamma (clamp channel))

/-- A channel as a number from 0 to 255, a half rounded up. -/
def toByte (v : Float) : Nat :=
  (clamp v * 255.0 + 0.5).floor.toUInt64.toNat

/-- The two hexadecimal digits of a byte. -/
def bytePair (n : Nat) : Char × Char :=
  (Nat.digitChar (n / 16 % 16), Nat.digitChar (n % 16))

/-- Hexadecimal notation, with one digit for each channel where all pairs are doubled. -/
def hexOfBytes (bytes : List Nat) : Text :=
  let pairs := bytes.map bytePair
  if pairs.all fun (a, b) => a == b then '#' :: pairs.map Prod.fst
  else '#' :: pairs.flatMap fun (a, b) => [a, b]

/-- Hexadecimal notation of the channels; the opacity is written only when it is below one. -/
def toHex (channels : List Float) (alpha : Float) : Text :=
  hexOfBytes ((channels ++ if alpha < 1.0 then [alpha] else []).map toByte)

end WebTrim.Color
