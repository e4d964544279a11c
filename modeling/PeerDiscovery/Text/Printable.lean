/-!
# Printable text

The characters of a text that print, in their order. Control characters do not, blank ones apart,
and neither does an escape sequence: the escape character, what it announces, and the end of that.
A sequence that the text breaks off takes the rest of the text with it.

Blank controls print inside most sequences as well. Whether they end the sequence or interrupt it
is for the caller to say.
-/

namespace PeerDiscovery.Printable

/-- Parts of an escape sequence. -/
inductive Part where
  /-- Behind the escape character. -/
  | escape
  /-- In a sequence of the escape character, characters from the space to `/`, and a last one. -/
  | escapeIntermediate
  /-- In a control sequence. -/
  | control
  /-- At the start of a device control string. -/
  | deviceEntry
  /-- In the parameters of a device control string. -/
  | deviceParameters
  /-- In the characters between the parameters of a device control string and its body. -/
  | deviceIntermediate
  /-- In a body that the string terminator ends. -/
  | string
  /-- In an operating system command. -/
  | command
deriving DecidableEq, Repr

/-- Where in a text a character stands. -/
inductive Place where
  /-- In no escape sequence. -/
  | outside
  /-- In a part of an escape sequence. -/
  | inside (part : Part)
  /-- Where a sequence is interrupted: characters print as if outside, and the first that does not
  is in the sequence again. -/
  | interrupted (part : Part)
deriving DecidableEq, Repr

/-- What a blank control does to the escape sequence that it prints in. -/
inductive Blank where
  /-- What follows it is in no sequence. -/
  | ends
  /-- The sequence goes on where printing stops. -/
  | interrupts
deriving DecidableEq, Repr

/-- Control characters that leave a blank: the tab, the line feed, the form feed and the carriage
return. -/
def isBlankControl (c : Char) : Bool := c = '\t' || c = '\n' || c = '\x0c' || c = '\r'

/-- Characters that print where no escape sequence holds them. -/
def isPrintable (c : Char) : Bool := isBlankControl c || (' ' ≤ c && c ≠ '\x7f')

/-- Characters of one octet. -/
def isSingleOctet (c : Char) : Bool := c ≤ '\x7f'

/-- Characters with the string terminator, octet 0x9C, among their octets. -/
def holdsTerminator (c : Char) : Bool := (String.utf8EncodeChar c).contains 0x9C

/-- Whether a character lies in a range. -/
def between (low high c : Char) : Bool := low ≤ c && c ≤ high

/-- Whether blank controls print in a part. -/
def Part.printsBlanks : Part → Bool
  | .escape | .escapeIntermediate | .control => true
  | .deviceEntry | .deviceParameters | .deviceIntermediate | .string | .command => false

/-- The place behind a character of a sequence. -/
def Part.next (part : Part) (c : Char) : Place :=
  match part with
  | .escape =>
    if between ' ' '/' c then .inside .escapeIntermediate
    else if c = 'P' then .inside .deviceEntry
    else if c = '[' then .inside .control
    else if c = ']' then .inside .command
    else if c = 'X' || c = '^' || c = '_' then .inside .string
    else if between '0' '~' c then .outside
    else .inside .escape
  | .escapeIntermediate => if between '0' '~' c then .outside else .inside .escapeIntermediate
  | .control => if between '@' '~' c then .outside else .inside .control
  | .deviceEntry =>
    if between ' ' '/' c then .inside .deviceIntermediate
    else if between '0' '?' c then .inside .deviceParameters
    else if between '@' '~' c then .inside .string
    else .inside .deviceEntry
  | .deviceParameters =>
    if between ' ' '/' c then .inside .deviceIntermediate
    else if between '<' '~' c then .inside .string
    else .inside .deviceParameters
  | .deviceIntermediate =>
    if between '0' '~' c then .inside .string else .inside .deviceIntermediate
  | .string => if holdsTerminator c then .outside else .inside .string
  | .command => if c = '\x07' then .outside else .inside .command

/-- Whether a character prints. -/
def prints : Place → Char → Bool
  | .outside, c | .interrupted _, c => isPrintable c
  | .inside part, c => part.printsBlanks && isBlankControl c

/-- The place behind a character. An escape character starts anew wherever it stands, and the cancel
and substitute characters end every sequence. So does, in an interruption, a character of several
octets. -/
def next (blank : Blank) (place : Place) (c : Char) : Place :=
  if c = '\x1b' then .inside .escape
  else if c = '\x18' || c = '\x1a' then .outside
  else match place with
    | .outside => .outside
    | .inside part =>
      if prints (.inside part) c then
        match blank with
        | .ends => .outside
        | .interrupts => .interrupted part
      else part.next c
    | .interrupted part =>
      if !isPrintable c then .inside part
      else if isSingleOctet c then .interrupted part
      else .outside

/-- The characters that print, from a place on. -/
def clean (blank : Blank) : Place → List Char → List Char
  | _, [] => []
  | place, c :: rest =>
    let following := clean blank (next blank place c) rest
    if prints place c then c :: following else following

/-- The part of a text that prints. -/
def text (blank : Blank) (source : String) : String :=
  String.ofList (clean blank .outside source.toList)

/-! ## What is left -/

theorem isPrintable_of_prints {place : Place} {c : Char} (printed : prints place c = true) :
    isPrintable c = true := by
  cases place <;> simp_all [prints, isPrintable]

/-- What is left holds printable characters only. -/
theorem isPrintable_of_mem_clean {blank : Blank} {place : Place} {chars : List Char} {c : Char}
    (mem : c ∈ clean blank place chars) : isPrintable c = true := by
  induction chars generalizing place with
  | nil => simp [clean] at mem
  | cons d rest ih =>
    rw [clean] at mem
    split at mem
    next printed =>
      obtain rfl | mem := List.mem_cons.1 mem
      · exact isPrintable_of_prints printed
      · exact ih mem
    next => exact ih mem

theorem next_outside_of_isPrintable {blank : Blank} {c : Char}
    (printable : isPrintable c = true) : next blank .outside c = .outside := by
  have other : c ≠ '\x1b' := by rintro rfl; revert printable; decide
  simp [next, other]

/-- A text of printable characters stays as it is. -/
theorem clean_outside_of_forall {blank : Blank} {chars : List Char}
    (printable : ∀ c ∈ chars, isPrintable c = true) : clean blank .outside chars = chars := by
  induction chars with
  | nil => rfl
  | cons c rest ih =>
    have first := printable c List.mem_cons_self
    rw [clean, prints, if_pos first, next_outside_of_isPrintable first,
      ih fun d mem => printable d (List.mem_cons_of_mem c mem)]

end PeerDiscovery.Printable
