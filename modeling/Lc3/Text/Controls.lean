/-
Text without the parts that would work a terminal. Controls are left
out, all but the blanks, and so are the sequences that an escape begins:

- an escape and the character behind it, and if that lies between the
  space and the slash, all up to the first that does not;
- behind an escape and an opening bracket, all up to a character between
  the at sign and the tilde;
- behind an escape and a closing bracket, all up to a bell;
- behind an escape and one of X, ^ and _, all up to a string terminator;
- behind an escape and a P, a header and then a string as behind an X. A
  header is a private mark, if any, parameters, and characters between
  the space and the slash, in this order, and then a character between
  the at sign and the tilde. What does not fit into it ends it too.

A new escape begins a new sequence wherever it stands, and a cancel or
substitute character ends any. A blank inside a sequence of the first
two kinds is shown, with the text behind it up to the next control,
after which the sequence goes on.
-/
namespace Lc3.Text.Controls

/-- How far the header of a device control string has come. -/
inductive Header where
  /-- Nothing of it has been read. -/
  | start
  /-- A private mark or a parameter has been read. -/
  | parameters
  /-- An intermediate character has been read. -/
  | intermediates
deriving DecidableEq, Repr

/-- Where a character stands. -/
inductive Place where
  /-- In no sequence. -/
  | plain
  /-- Right behind an escape. -/
  | escape
  /-- Behind an escape and an intermediate character. -/
  | intermediate
  /-- In a control sequence. -/
  | sequence
  /-- In a command to the operating system. -/
  | command
  /-- In the header of a device control string. -/
  | header (read : Header)
  /-- In a string that only its terminator ends. -/
  | string
deriving DecidableEq, Repr

/-- The four controls that make white space. -/
def isBlank (c : Char) : Bool :=
  c == '\t' || c == '\n' || c == '\x0c' || c == '\r'

/-- A character with a place of its own on the screen. -/
def isVisible (c : Char) : Bool :=
  0x20 ≤ c.toNat && c.toNat ≠ 0x7f

def isIntermediate (c : Char) : Bool := ' ' ≤ c && c ≤ '/'

/-- A character that ends a control sequence. -/
def isFinal (c : Char) : Bool := '@' ≤ c && c ≤ '~'

/-- A character that parameters are written with. -/
def isParameter (c : Char) : Bool := '0' ≤ c && c ≤ ';'

/-- One of the four characters that tell private parameters. -/
def isPrivateMark (c : Char) : Bool := '<' ≤ c && c ≤ '?'

/-- A string is read byte by byte, and its terminator is a single byte
that may as well be part of a character. -/
def hasTerminator (c : Char) : Bool :=
  (String.utf8EncodeChar c).contains 0x9c

/-- Where the character behind an escape leads. -/
def Place.behindEscape (c : Char) : Place :=
  match c with
  | '[' => sequence
  | ']' => command
  | 'P' => header .start
  | 'X' | '^' | '_' => string
  | c =>
      if isIntermediate c then intermediate
      else if '0' ≤ c ∧ c ≤ '~' then plain
      else escape

/-- How far a header has come behind a character, if it goes on. A final
character ends it, and so does one that is out of order; controls and
characters outside ASCII are passed over. -/
def Header.next? (h : Header) (c : Char) : Option Header :=
  if isIntermediate c then some intermediates
  else if isParameter c then
    if h = intermediates then none else some parameters
  else if isPrivateMark c then
    if h = start then some parameters else none
  else if isFinal c then none
  else some h

/-- Where a character leads. -/
def Place.next (p : Place) (c : Char) : Place :=
  if c = '\x1b' then escape
  else if c = '\x18' ∨ c = '\x1a' then plain
  else
    match p with
    | plain => plain
    | escape => behindEscape c
    | intermediate => if '0' ≤ c ∧ c ≤ '~' then plain else intermediate
    | sequence => if isFinal c then plain else sequence
    | command => if c = '\x07' then plain else command
    | header h =>
        match h.next? c with
        | some h => header h
        | none => string
    | string => if hasTerminator c then plain else string

/-- Whether a character is shown where it stands. -/
def Place.shows (p : Place) (c : Char) : Bool :=
  match p with
  | plain => isVisible c || isBlank c
  | escape | intermediate | sequence => isBlank c
  | command | header _ | string => false

/-- The characters that are shown. While `showing`, the sequence that
was left at `p` is suspended; a character outside ASCII ends it. -/
def scan (showing : Bool) (p : Place) : List Char → List Char
  | [] => []
  | c :: cs =>
      if showing && Place.plain.shows c then
        c :: scan true (if c.toNat < 0x80 then p else .plain) cs
      else if p.shows c then c :: scan true (p.next c) cs
      else scan false (p.next c) cs

def strip (s : String) : String :=
  String.ofList (scan false .plain s.toList)

end Lc3.Text.Controls
