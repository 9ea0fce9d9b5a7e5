import WebTrim.Failure
import WebTrim.Markup.Reference
import WebTrim.Table
import WebTrim.Text.Case
import WebTrim.Text.Search

/-!
# Reading a document

A tolerant reader that reports the start and end tags of a document. It first reads as far as
everything is complete, then goes on from there to the end, where incomplete constructs count as
text.

* `Event` — a start tag with its attributes, or an end tag.
* `readEvents` — the events of a document, unless it is refused as a whole.
-/

set_option autoImplicit false

namespace WebTrim.Markup

open Text

/-- What the reader reports. The content is that of a script or style element. -/
inductive Event where
  | opening (name : Text) (attributes : List (Text × Text)) (selfClosing : Bool) (content : Text)
  | closing (name : Text)
  deriving DecidableEq, Repr

/-- What stands at one place: something complete of a certain length, something incomplete, a place
where reading stops after some characters, or something for which the document is refused. -/
inductive Reading where
  | complete (length : Nat) (event : Option Event)
  | incomplete
  | halt (length : Nat)
  | refused (crash : Crash)

/-! ## Start tags -/

/-- A character of a tag name. -/
def isNameChar (c : Char) : Bool :=
  !(['\t', '\n', '\r', '\x0c', ' ', '/', '>'].contains c || c.toNat == 0)

/-- The text after blanks and slashes, except a slash right before a closing bracket. -/
def dropGap : Text → Text
  | [] => []
  | c :: rest =>
    if isBlank c || (c == '/' && rest.head? != some '>') then dropGap rest else c :: rest

/-- A value without quotes. -/
def bareValue (t : Text) : Text :=
  t.takeWhile fun c => !(c == '>' || isBlank c)

/-- The value after an attribute name, without quotes, and the text after it. Before a quote that is
not closed, the value is empty if blanks stand there; otherwise a second equals sign begins the
value, and with a single one there is no value. -/
def readAttributeValue? (t : Text) : Option (Text × Text) :=
  let (signs, t) := splitWhile (· == '=') (t.dropWhile isBlank)
  if signs.isEmpty then none
  else
    let (blanks, t) := splitWhile isBlank t
    match t with
    | c :: rest =>
      if c = '"' ∨ c = '\'' then
        match cut? [c] rest with
        | some (value, after) => some (value, after)
        | none =>
          if !blanks.isEmpty then some ([], t)
          else if signs.length ≥ 2 then
            let value := '=' :: bareValue t
            some (value, t.drop (value.length - 1))
          else none
      else some (bareValue t, t.drop (bareValue t).length)
    | [] => some ([], [])

/-- The attributes of a start tag as they are written, and the text after them; `before` is the
character before. An attribute begins after a quote, a blank or a slash. -/
def readAttributes (before : Char) (t : Text) : List (Text × Text) × Text :=
  match t with
  | [] => ([], [])
  | c :: rest =>
    if !(before == '"' || before == '\'' || before == '/' || isBlank before) ||
        isBlank c || c == '/' || c == '>' then ([], t)
    else
      let (more, after) := splitWhile (fun d => !(isBlank d || d == '/' || d == '=' || d == '>')) rest
      let (value, after) := (readAttributeValue? after).getD ([], after)
      let taken := rest.length - (dropGap after).length
      let last := (rest.take taken).getLastD c
      let (others, final) := readAttributes last (rest.drop taken)
      ((lower (c :: more), value) :: others, final)
termination_by t.length
decreasing_by
  simp only [List.length_drop, List.length_cons]
  omega

/-- The attributes with their values decoded. -/
def decodeValues (decode : Text → Except Crash Text) (attributes : List (Text × Text)) :
    Except Crash (List (Text × Text)) :=
  attributes.mapM fun (name, value) => do
    return (name, ← if value.isEmpty then pure [] else decode value)

/-- The start tag at `<` and a letter, without the bracket. -/
def readStartTag (decode : Text → Except Crash Text) (t : Text) : Reading :=
  let (name, rest) := splitWhile isNameChar t
  let gap := dropGap rest
  let before := ((t.take (t.length - gap.length)).getLast?).getD '<'
  let (attributes, after) := readAttributes before gap
  let length := 1 + t.length - after.length
  let complete (extra : Nat) (event? : List (Text × Text) → Option Event) : Reading :=
    match decodeValues decode attributes with
    | .ok attributes => .complete (length + extra) (event? attributes)
    | .error crash => .refused crash
  match after with
  | '>' :: _ => complete 1 fun attributes => some (.opening (lower name) attributes false [])
  | '/' :: '>' :: _ => complete 2 fun attributes => some (.opening (lower name) attributes true [])
  | [] => .incomplete
  | c :: _ =>
    if isAsciiLetter c || c == '=' || c == '/' then .incomplete else complete 0 fun _ => none

/-! ## End tags, comments and declarations -/

/-- A character of the name of a plain end tag. -/
def isPlainNameChar (c : Char) : Bool :=
  isAsciiAlnum c || ['-', '.', ':', '_'].contains c

/-- The name of an end tag that holds nothing else, after `</`. -/
def plainEndName? (t : Text) : Option Text :=
  match t.dropWhile isBlank with
  | c :: rest =>
    if isAsciiLetter c then
      let (more, after) := splitWhile isPlainNameChar rest
      if (after.dropWhile isBlank).head? = some '>' then some (lower (c :: more)) else none
    else none
  | [] => none

/-- The end tag at `</`, given the text after that. -/
def readEndTag (t : Text) : Reading :=
  match cut? ['>'] t with
  | none => .incomplete
  | some (inside, _) =>
    let length := 2 + inside.length + 1
    match plainEndName? t with
    | some name => .complete length (some (.closing name))
    | none =>
      if t.head?.any isAsciiLetter then
        .complete length (some (.closing (lower (t.takeWhile isNameChar))))
      else .complete length none

/-- The text before the first place where `close?` finds an end, and the text after that end. -/
def cutAt? (close? : Text → Option Text) : Text → Option (Text × Text)
  | [] => none
  | c :: rest =>
    match close? (c :: rest) with
    | some after => some ([], after)
    | none => (cutAt? close? rest).map fun (before, after) => (c :: before, after)

/-- Something of which `lead` characters have been read and that goes on to the end that `close?`
finds. -/
def readThrough (lead : Nat) (close? : Text → Option Text) (t : Text) : Reading :=
  match cutAt? close? t with
  | some (_, after) => .complete (lead + (t.length - after.length)) none
  | none => .incomplete

/-- Two hyphens, blanks and a closing bracket. -/
def closeComment? (t : Text) : Option Text := do
  match (← ['-', '-'].isPrefixOf? t).dropWhile isBlank with
  | '>' :: after => return after
  | _ => none

/-- A square bracket, blanks and a closing bracket. -/
def closeCondition? (t : Text) : Option Text := do
  match (← [']'].isPrefixOf? t).dropWhile isBlank with
  | '>' :: after => return after
  | _ => none

/-- Two square brackets and a closing bracket, with blanks between. -/
def closeSection? (t : Text) : Option Text := do
  closeCondition? ((← [']'].isPrefixOf? t).dropWhile isBlank)

/-- A closing bracket. -/
def closeBracket? (t : Text) : Option Text :=
  ['>'].isPrefixOf? t

/-- The marked section at `<![`, given the text after that. -/
def readSection (t : Text) : Reading :=
  match t with
  | [] => .incomplete
  | c :: rest =>
    if !isAsciiLetter c then .refused .rejectedMarkup
    else
      let (more, after) := splitWhile (fun d => isAsciiAlnum d || ['-', '_', '.'].contains d) rest
      let name := String.ofList (lower (c :: more))
      if (after.dropWhile isBlank).isEmpty then .incomplete
      else if ["temp", "cdata", "ignore", "include", "rcdata"].contains name then
        readThrough 3 closeSection? t
      else if ["if", "else", "endif"].contains name then readThrough 3 closeCondition? t
      else .refused .rejectedMarkup

/-- The declaration at `<!`, given the text after that. -/
def readDeclaration (t : Text) : Reading :=
  match t with
  | '-' :: '-' :: rest => readThrough 4 closeComment? rest
  | '[' :: rest => readSection rest
  | _ =>
    if lower (t.take 7) = "doctype".toList then readThrough 9 closeBracket? (t.drop 7)
    else readThrough 2 closeBracket? t

/-! ## References in text -/

/-- One more than the length if a semicolon follows. -/
def throughSemicolon (length : Nat) (after : Text) : Nat :=
  if after.head? = some ';' then length + 1 else length

/-- A numeric reference at `&#`, given the text after that. One that is cut off stops the reading,
after `&#` if a semicolon comes later, and one with too many digits is refused. -/
def readNumberReference (t : Text) : Reading :=
  let halt := Reading.halt (if t.contains ';' then 2 else 0)
  let digits := t.takeWhile isAsciiDigit
  if !digits.isEmpty then
    let after := t.drop digits.length
    if after.isEmpty || after.head?.any isHexDigit then halt
    else if digitLimit < digits.length then .refused (.tooManyDigits digits.length)
    else .complete (throughSemicolon (2 + digits.length) after) none
  else if t.head? = some 'x' ∨ t.head? = some 'X' then
    let digits := (t.drop 1).takeWhile isHexDigit
    let after := t.drop (1 + digits.length)
    if digits.isEmpty || after.isEmpty then halt
    else .complete (throughSemicolon (3 + digits.length) after) none
  else halt

/-- A named reference at `&`, given the text after that. A name that runs to the end of the text is
cut off at its last hyphen or full stop; without one it stops the reading. -/
def readNamedReference (t : Text) : Reading :=
  match t with
  | [] => .halt 0
  | c :: rest =>
    if isAsciiLetter c then
      let (more, after) := splitWhile (fun d => isAsciiAlnum d || d == '-' || d == '.') rest
      if !after.isEmpty then .complete (throughSemicolon (2 + more.length) after) none
      else
        let kept := (more.reverse.dropWhile isAsciiAlnum).length
        if kept = 0 then .halt 0 else .complete (1 + kept) none
    else .complete 1 none

/-! ## The reader -/

/-- What stands at the beginning of a text. -/
def readAt (decode : Text → Except Crash Text) : Text → Reading
  | [] => .halt 0
  | '<' :: [] => .halt 0
  | '<' :: '/' :: rest => readEndTag rest
  | '<' :: '?' :: rest => readThrough 2 closeBracket? rest
  | '<' :: '!' :: rest => readDeclaration rest
  | '<' :: c :: rest => if isAsciiLetter c then readStartTag decode (c :: rest) else .complete 1 none
  | '&' :: '#' :: rest => readNumberReference rest
  | '&' :: rest => readNamedReference rest
  | _ :: rest => .complete (1 + (rest.takeWhile fun c => !(c == '<' || c == '&')).length) none

/-- How much of an incomplete construct counts as text at the end of the document: through the next
closing bracket, or up to the next opening one, or a single character. -/
def incompleteLength (t : Text) : Nat :=
  let rest := t.drop 1
  match cut? ['>'] rest with
  | some (before, _) => 1 + before.length + 1
  | none =>
    match cut? ['<'] rest with
    | some (before, _) => 1 + before.length
    | none => 1

/-! ## Script and style elements -/

/-- The rest of a text that begins with the lower case `word` in ASCII letters of either case. -/
def dropAsciiWord? : Text → Text → Option Text
  | [], t => some t
  | _ :: _, [] => none
  | w :: word, c :: rest =>
    if c.toNat < 0x80 && lowerChar c == w then dropAsciiWord? word rest else none

/-- The text after an end tag whose name `dropName?` reads. -/
def closeElement? (dropName? : Text → Option Text) (t : Text) : Option Text := do
  let rest ← dropName? ((← ['<', '/'].isPrefixOf? t).dropWhile isBlank)
  match rest.dropWhile isBlank with
  | '>' :: after => return after
  | _ => none

/-- The length of a text through the last place where `close?` finds an end; zero if there is none.
-/
def lengthThroughLast (close? : Text → Option Text) : Text → Nat
  | [] => 0
  | c :: rest =>
    match lengthThroughLast close? rest with
    | 0 =>
      match close? (c :: rest) with
      | some after => (c :: rest).length - after.length
      | none => 0
    | n => n + 1

/-- The content of a script or style element, and the number of characters through its end tag.
Without an end tag there is no such number, and the content reaches through the last place that
reads as one by letters beyond ASCII. -/
def readContent (name t : Text) : Text × Option Nat :=
  match cutAt? (closeElement? (dropAsciiWord? name)) t with
  | some (content, after) => (content, some (t.length - after.length))
  | none => (t.take (lengthThroughLast (closeElement? (dropWord? name)) t), none)

/-- The name of a script or style element that an event opens. -/
def Event.rawName? : Event → Option Text
  | opening name _ false _ =>
    if name = "script".toList ∨ name = "style".toList then some name else none
  | _ => none

/-- The event with the content of the element it opens. -/
def Event.withContent (content : Text) : Event → Event
  | opening name attributes selfClosing _ => opening name attributes selfClosing content
  | closing name => closing name

/-! ## The whole document -/

/-- The events of a text. With `atEnd`, incomplete constructs count as text. -/
def eventsFrom (decode : Text → Except Crash Text) (atEnd : Bool) (t : Text) :
    Except Crash (List Event) :=
  match t with
  | [] => .ok []
  | c :: rest =>
    match readAt decode (c :: rest) with
    | .refused crash => .error crash
    | .halt length => if atEnd then .ok [] else eventsFrom decode true ((c :: rest).drop length)
    | .incomplete =>
      if atEnd then eventsFrom decode true (rest.drop (incompleteLength (c :: rest) - 1))
      else eventsFrom decode true (c :: rest)
    | .complete length event =>
      let after := rest.drop (length - 1)
      match event with
      | none => eventsFrom decode atEnd after
      | some event =>
        match event.rawName? with
        | none =>
          match eventsFrom decode atEnd after with
          | .ok events => .ok (event :: events)
          | .error e => .error e
        | some name =>
          match readContent name after with
          | (content, none) => .ok [event.withContent content]
          | (content, some length) =>
            match eventsFrom decode atEnd (after.drop length) with
            | .ok events => .ok (event.withContent content :: .closing name :: events)
            | .error e => .error e
termination_by ((if atEnd then 0 else 1 : Nat), t.length)
decreasing_by
  · exact Prod.Lex.left _ _ (by simp_all)
  · simp_all only [if_true]
    exact Prod.Lex.right _ (by simp only [List.length_drop, List.length_cons]; omega)
  · exact Prod.Lex.left _ _ (by simp_all)
  all_goals exact Prod.Lex.right _ (by simp only [List.length_drop, List.length_cons]; omega)

/-- The events of a document, unless it is refused as a whole. -/
def readEvents (decode : Text → Except Crash Text) (document : Text) :
    Except Crash (List Event) :=
  eventsFrom decode false document

end WebTrim.Markup
