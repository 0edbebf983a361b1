import CountyFlow.Lib.Replacement
import CountyFlow.Memory.Sanitizer

/-!
# Redacted values

`app/security/redaction.py`: `SensitiveDataRedactor` makes what may be logged of a value.  It looks at the
keys of mappings, and at texts by four patterns, one after the other, behind a cut at the maximum length.
Each of them is a rule of `Lib.Rule`.

What `\w` matches depends on the tables of Unicode: a `WordTable` is any such table.
-/

namespace CountyFlow.Security

open CountyFlow.Lib
open CountyFlow.Memory (ignoreCase)
open CountyFlow.Worker.Db (isSpace)

/-- What `\w` matches: no space.  The four letters are those that `re.IGNORECASE` takes for a letter of
ASCII. -/
structure WordTable where
  isWord : Char → Bool
  ascii : ∀ c, c.toNat < 128 → isWord c = (c.isAlphanum || c = '_')
  letters : ∀ c ∈ ['İ', 'ı', 'ſ', '\u212A'], isWord c = true
  spaces : ∀ c, isSpace c = true → isWord c = false

/-- `REDACTED`. -/
def redactedMark : List Char := ['[', 'R', 'E', 'D', 'A', 'C', 'T', 'E', 'D', ']']

namespace WordTable

variable (w : WordTable)

/-! ### The patterns -/

/-- `\b`. -/
def border (before : Bool) (cs : List Char) : Bool := before != cs.head?.any w.isWord

/-- A text begins with some letters, under `re.IGNORECASE`. -/
def spells : List Char → List Char → Bool
  | [], _ => true
  | _ :: _, [] => false
  | letter :: letters, c :: cs => c ∈ ignoreCase letter && spells letters cs

/-- `[A-Za-z0-9._~+/=-]`, under `re.IGNORECASE`. -/
def isCredential (c : Char) : Bool :=
  c.isAlphanum || c ∈ ['.', '_', '~', '+', '/', '=', '-', 'İ', 'ı', 'ſ', '\u212A']

/-- `\s+[A-Za-z0-9._~+/=-]+`: how much of a text is one. -/
def credential (cs : List Char) : Option ℕ :=
  let spaces := cs.takeWhile isSpace
  let value := (cs.dropWhile isSpace).takeWhile isCredential
  if spaces = [] ∨ value = [] then none else some (spaces.length + value.length)

/-- `(Bearer|Basic)`. -/
def authenticationSchemes : List (List Char) := [['b', 'e', 'a', 'r', 'e', 'r'], ['b', 'a', 's', 'i', 'c']]

def bearerOrBasic : Rule Char := fun before cs =>
  if w.border before cs then
    authenticationSchemes.findSome? fun scheme =>
      if spells scheme cs then
        (credential (cs.drop scheme.length)).map fun taken =>
          (cs.take scheme.length ++ ' ' :: redactedMark, scheme.length + taken)
      else none
  else none

/-- `[A-Za-z0-9_-]`. -/
def isToken (c : Char) : Bool := c.isAlphanum || c = '_' || c = '-'

/-- `[A-Za-z0-9_-]{8,}\.`: how much of a text is one, and what is behind it. -/
def tokenPart (cs : List Char) : Option (ℕ × List Char) :=
  match cs.dropWhile isToken with
  | '.' :: rest =>
    if 8 ≤ (cs.takeWhile isToken).length then some ((cs.takeWhile isToken).length + 1, rest) else none
  | _ => none

/-- `[A-Za-z0-9_-]{8,}\b`, of which `n` characters are taken: as many more as go, and fewer where no word
begins or ends behind them. -/
def lastPart : ℕ → Bool → List Char → Option ℕ
  | n, before, [] => if 8 ≤ n ∧ w.border before [] then some n else none
  | n, before, c :: cs =>
    (if isToken c then lastPart (n + 1) (w.isWord c) cs else none).or
      (if 8 ≤ n ∧ w.border before (c :: cs) then some n else none)

def jwtValue : Rule Char := fun before cs =>
  if w.border before cs then
    (tokenPart cs).bind fun header =>
      (tokenPart header.2).bind fun payload =>
        (w.lastPart 0 false payload.2).map fun signature => (redactedMark, header.1 + (payload.1 + signature))
  else none

/-- `(?P<scheme>https?|redis|mysql|neo4j\+s?|bolt)`. -/
def urlSchemes : List (List Char) :=
  [['h', 't', 't', 'p', 's'], ['h', 't', 't', 'p'], ['r', 'e', 'd', 'i', 's'], ['m', 'y', 's', 'q', 'l'],
    ['n', 'e', 'o', '4', 'j', '+', 's'], ['n', 'e', 'o', '4', 'j', '+'], ['b', 'o', 'l', 't']]

/-- `[^\s/@:]`. -/
def inUser (c : Char) : Bool := !isSpace c && c ∉ ['/', '@', ':']

/-- `[^\s/@]`. -/
def inPassword (c : Char) : Bool := !isSpace c && c ∉ ['/', '@']

/-- `[^\s/@:]+:[^\s/@]+@`: how much of a text is one. -/
def userInfo (cs : List Char) : Option ℕ :=
  match cs.dropWhile inUser with
  | ':' :: rest =>
    match rest.dropWhile inPassword with
    | '@' :: _ =>
      if cs.takeWhile inUser = [] ∨ rest.takeWhile inPassword = [] then none
      else some ((cs.takeWhile inUser).length + 1 + ((rest.takeWhile inPassword).length + 1))
    | _ => none
  | _ => none

def credentialUrl : Rule Char := fun _ cs =>
  urlSchemes.findSome? fun scheme =>
    if spells (scheme ++ [':', '/', '/']) cs then
      (userInfo (cs.drop (scheme.length + 3))).map fun taken =>
        (cs.take scheme.length ++ ([':', '/', '/'] ++ redactedMark ++ ['@']), scheme.length + 3 + taken)
    else none

/-- `(?P<key>(?:access_token|refresh_token|api[_-]?key|client_secret|token|ticket|password|secret))`. -/
def secretKeys : List (List Char) :=
  [['a', 'c', 'c', 'e', 's', 's', '_', 't', 'o', 'k', 'e', 'n'],
    ['r', 'e', 'f', 'r', 'e', 's', 'h', '_', 't', 'o', 'k', 'e', 'n'],
    ['a', 'p', 'i', '_', 'k', 'e', 'y'], ['a', 'p', 'i', '-', 'k', 'e', 'y'], ['a', 'p', 'i', 'k', 'e', 'y'],
    ['c', 'l', 'i', 'e', 'n', 't', '_', 's', 'e', 'c', 'r', 'e', 't'], ['t', 'o', 'k', 'e', 'n'],
    ['t', 'i', 'c', 'k', 'e', 't'], ['p', 'a', 's', 's', 'w', 'o', 'r', 'd'], ['s', 'e', 'c', 'r', 'e', 't']]

/-- `[^&\s"']`. -/
def inValue (c : Char) : Bool := !isSpace c && c ∉ ['&', '"', '\'']

def querySecret : Rule Char := fun _ cs =>
  secretKeys.findSome? fun key =>
    if spells (key ++ ['=']) cs then
      let value := (cs.drop (key.length + 1)).takeWhile inValue
      if value = [] then none
      else some (cs.take key.length ++ '=' :: redactedMark, key.length + 1 + value.length)
    else none

/-- `re.sub`, with one of the patterns. -/
def sub (rule : Rule Char) (text : List Char) : List Char := rule.replace w.isWord false 0 text

end WordTable

/-! ### The redactor -/

/-- A value that is logged: `scalar` is an `int`, a `float`, a `bool` or `None`, `sequence` a list, a tuple or
a set, and `object` anything else, with what `str` makes of it where that does not raise.  A mapping is given
with the texts of its keys. -/
inductive Loggable (α : Type) where
  | mapping (entries : List (String × Loggable α))
  | sequence (items : List (Loggable α))
  | secretStr (value : String)
  | text (value : String)
  | scalar (value : α)
  | object (printed : Option String)

def sensitiveKeyMarkers : List (List Char) :=
  [['a', 'u', 't', 'h', 'o', 'r', 'i', 'z', 'a', 't', 'i', 'o', 'n'], ['c', 'o', 'o', 'k', 'i', 'e'],
    ['t', 'o', 'k', 'e', 'n'], ['a', 'p', 'i', 'k', 'e', 'y'], ['p', 'a', 's', 's', 'w', 'o', 'r', 'd'],
    ['s', 'e', 'c', 'r', 'e', 't'], ['c', 'l', 'i', 'e', 'n', 't', 's', 'e', 'c', 'r', 'e', 't'],
    ['p', 'r', 'i', 'v', 'a', 't', 'e', 'k', 'e', 'y']]

/-- What `re.sub(r"[^a-z0-9]", "", key.lower())` leaves of a character.  Two characters outside of ASCII are
lowered to a letter of it. -/
def keyLetters (c : Char) : List Char :=
  if c = '\u212A' then ['k'] else if c = 'İ' then ['i'] else [c.toLower].filter fun d =>
    d.isLower || d.isDigit

def sensitiveKey (key : String) : Bool :=
  sensitiveKeyMarkers.any fun marker => marker <:+: key.toList.flatMap keyLetters

structure SensitiveDataRedactor where
  maximumStringLength : ℕ
  maximumDepth : ℕ
  length_pos : 0 < maximumStringLength
  depth_pos : 0 < maximumDepth

def putEntry {β : Type} (key : String) (value : β) : List (String × β) → List (String × β)
  | [] => [(key, value)]
  | entry :: entries => if entry.1 = key then (key, value) :: entries else entry :: putEntry key value entries

/-- A dictionary of entries in the order in which they are put in. -/
def dictOf {β : Type} (entries : List (String × β)) : List (String × β) :=
  entries.foldl (fun dict entry => putEntry entry.1 entry.2 dict) []

namespace SensitiveDataRedactor

/-- `__init__`. -/
def new (maximumStringLength : ℤ := 2048) (maximumDepth : ℤ := 8) : Except String SensitiveDataRedactor :=
  if h : maximumStringLength ≤ 0 ∨ maximumDepth ≤ 0 then .error "redaction bounds must be positive"
  else .ok
    { maximumStringLength := maximumStringLength.toNat
      maximumDepth := maximumDepth.toNat
      length_pos := by omega
      depth_pos := by omega }

variable (w : WordTable) (r : SensitiveDataRedactor) {α : Type}

/-- The four patterns of `_redact_text`. -/
def patterns (bounded : List Char) : List Char :=
  w.sub WordTable.querySecret
    (w.sub WordTable.credentialUrl (w.sub w.jwtValue (w.sub w.bearerOrBasic bounded)))

def redactText (value : String) : String :=
  String.ofList (patterns w (value.toList.take r.maximumStringLength))

/-- What is made of a value that is not too deep. -/
def within (depth : ℕ) (value : Loggable α) : Loggable α :=
  if r.maximumDepth ≤ depth then .text "[TRUNCATED]" else value

mutual

/-- `redact`, whose `_depth` is `depth`. -/
def redact (key : Option String) (depth : ℕ) (value : Loggable α) : Loggable α :=
  if key.any sensitiveKey then .text "[REDACTED]"
  else
    match value with
    | .secretStr _ => .text "[REDACTED]"
    | .mapping entries => r.within depth (.mapping (dictOf (redactEntries (depth + 1) entries)))
    | .sequence items => r.within depth (.sequence (redactItems (depth + 1) items))
    | .text value => r.within depth (.text (r.redactText w value))
    | .scalar value => r.within depth (.scalar value)
    | .object (some printed) => r.within depth (.text (r.redactText w printed))
    | .object none => r.within depth (.text "[REDACTED]")

def redactEntries (depth : ℕ) : List (String × Loggable α) → List (String × Loggable α)
  | [] => []
  | (key, value) :: entries => (key, redact (some key) depth value) :: redactEntries depth entries

def redactItems (depth : ℕ) : List (Loggable α) → List (Loggable α)
  | [] => []
  | item :: items => redact none depth item :: redactItems depth items

end

end SensitiveDataRedactor

end CountyFlow.Security
