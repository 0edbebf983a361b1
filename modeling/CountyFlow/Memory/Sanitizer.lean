import CountyFlow.Lib.Redaction
import CountyFlow.Security.Principal

/-!
# Sanitised texts

`app/shared_memory/security.py`: `sanitize_audit_text` puts `[REDACTED]` in the place of bearer tokens and
of credentials behind a key.  What `\w` matches, which depends on the tables of Unicode, is the parameter
`isWord`.
-/

namespace CountyFlow.Memory

open CountyFlow.Lib
open CountyFlow.Worker.Db (strip isSpace)

/-! ### The patterns -/

/-- What a letter of a pattern matches under `(?i)`. -/
def ignoreCase : Char → List Char
  | 'i' => ['i', 'I', 'İ', 'ı']
  | 'k' => ['k', 'K', '\u212A']
  | 's' => ['s', 'S', 'ſ']
  | c => [c, c.toUpper]

def letters (key : List Char) : List (Atom Char) := key.map fun c => .one (· ∈ ignoreCase c)

/-- `(?i)\bBearer\s+[A-Za-z0-9._~+/=-]+`. -/
def bearerPattern : Secret Char where
  fronts := [letters ['b', 'e', 'a', 'r', 'e', 'r'] ++ [.one isSpace, .star isSpace]]
  value c := c.isAlphanum ∨ c ∈ ['.', '_', '~', '+', '/', '=', '-', 'İ', 'ı', 'ſ', '\u212A']

/-- `\s*[=:]\s*`. -/
def assignment : List (Atom Char) := [.star isSpace, .one (· ∈ ['=', ':']), .star isSpace]

/-- `(?i)\b(api[_-]?key|password|token)\s*[=:]\s*[^\s,;]+`. -/
def credentialPattern : Secret Char where
  fronts :=
    [letters ['a', 'p', 'i'] ++ .optional (· ∈ ['_', '-']) :: (letters ['k', 'e', 'y'] ++ assignment),
      letters ['p', 'a', 's', 's', 'w', 'o', 'r', 'd'] ++ assignment,
      letters ['t', 'o', 'k', 'e', 'n'] ++ assignment]
  value c := ¬ isSpace c ∧ c ≠ ',' ∧ c ≠ ';'

/-- `[REDACTED]`, behind its first character. -/
def redacted : List Char := ['R', 'E', 'D', 'A', 'C', 'T', 'E', 'D', ']']

variable (isWord : Char → Bool)

/-- `sanitize_audit_text`, of a text. -/
def sanitizeAuditText (value : String) : String :=
  String.ofList (sub isWord ('[' :: redacted) credentialPattern none 0
    (sub isWord ('[' :: redacted) bearerPattern none 0 value.toList))

/-! ### The mark changes nothing -/

theorem bearer_begins {a : Char} (h : bearerPattern.Begins a) : a ∈ ['b', 'B'] := by
  obtain ⟨cs, h⟩ := h
  by_contra hne
  have hletter : ¬ a ∈ ignoreCase 'b' := hne
  simp [Secret.rest, Secret.behind, bearerPattern, letters, runAtoms, Atom.run, hletter] at h

theorem credential_begins {a : Char} (h : credentialPattern.Begins a) :
    a ∈ ['a', 'A', 'p', 'P', 't', 'T'] := by
  obtain ⟨cs, h⟩ := h
  by_contra hne
  simp at hne
  have ha : ¬ a ∈ ignoreCase 'a' := by simp [ignoreCase]; tauto
  have hp : ¬ a ∈ ignoreCase 'p' := by simp [ignoreCase]; tauto
  have ht : ¬ a ∈ ignoreCase 't' := by simp [ignoreCase]; tauto
  simp [Secret.rest, Secret.behind, credentialPattern, letters, runAtoms, Atom.run, ha, hp, ht] at h

theorem bearer_inside (s : List Char) (hs : s <:+ '[' :: redacted) (hne : s ≠ []) (rest : List Char) :
    bearerPattern.rest (s ++ rest) = none := by
  simp only [redacted, List.suffix_cons_iff, List.suffix_nil] at hs
  rcases hs with rfl | rfl | rfl | rfl | rfl | rfl | rfl | rfl | rfl | rfl | rfl
  all_goals first
    | exact absurd rfl hne
    | simp [Secret.rest, Secret.behind, bearerPattern, letters, runAtoms, Atom.run, ignoreCase]

theorem credential_inside (s : List Char) (hs : s <:+ '[' :: redacted) (hne : s ≠ []) (rest : List Char) :
    credentialPattern.rest (s ++ rest) = none := by
  simp only [redacted, List.suffix_cons_iff, List.suffix_nil] at hs
  rcases hs with rfl | rfl | rfl | rfl | rfl | rfl | rfl | rfl | rfl | rfl | rfl
  all_goals first
    | exact absurd rfl hne
    | simp [Secret.rest, Secret.behind, credentialPattern, letters, runAtoms, Atom.run, ignoreCase]

theorem bearer_steady : Steady bearerPattern bearerPattern '[' redacted where
  passes a ha := by
    have h : ∀ a ∈ ['b', 'B'], decide (∀ front ∈ bearerPattern.fronts, ∀ atom ∈ front, atom.Passes '[' a) =
        true := List.all_eq_true.mp (by decide +kernel)
    exact of_decide_eq_true (h a (bearer_begins ha))
  value a _ h := absurd h (by decide)
  after a ha := by
    have h : ∀ a ∈ ['b', 'B'], bearerPattern.value a = true := List.all_eq_true.mp (by decide)
    exact h a (bearer_begins ha)
  inside := bearer_inside

theorem bearer_steady_credential : Steady bearerPattern credentialPattern '[' redacted where
  passes a ha := by
    have h : ∀ a ∈ ['a', 'A', 'p', 'P', 't', 'T'],
        decide (∀ front ∈ bearerPattern.fronts, ∀ atom ∈ front, atom.Passes '[' a) = true :=
      List.all_eq_true.mp (by decide +kernel)
    exact of_decide_eq_true (h a (credential_begins ha))
  value a _ h := absurd h (by decide)
  after a ha := by
    have h : ∀ a ∈ ['b', 'B'], credentialPattern.value a = true := List.all_eq_true.mp (by decide)
    exact h a (bearer_begins ha)
  inside := bearer_inside

theorem credential_steady : Steady credentialPattern credentialPattern '[' redacted where
  passes a ha := by
    have h : ∀ a ∈ ['a', 'A', 'p', 'P', 't', 'T'],
        decide (∀ front ∈ credentialPattern.fronts, ∀ atom ∈ front, atom.Passes '[' a) = true :=
      List.all_eq_true.mp (by decide +kernel)
    exact of_decide_eq_true (h a (credential_begins ha))
  value a ha _ := by
    have h : ∀ a ∈ ['a', 'A', 'p', 'P', 't', 'T'], credentialPattern.value a = true :=
      List.all_eq_true.mp (by decide)
    exact h a (credential_begins ha)
  after a ha := by
    have h : ∀ a ∈ ['a', 'A', 'p', 'P', 't', 'T'], credentialPattern.value a = true :=
      List.all_eq_true.mp (by decide)
    exact h a (credential_begins ha)
  inside := credential_inside

theorem sanitize_sanitize (value : String) :
    sanitizeAuditText isWord (sanitizeAuditText isWord value) = sanitizeAuditText isWord value := by
  have hbearer := free_sub_text isWord bearer_steady value.toList (.inl rfl)
  have hbearer' := free_sub_text isWord bearer_steady_credential _ (.inr hbearer)
  have hcredential := free_sub_text isWord credential_steady
    (sub isWord ('[' :: redacted) bearerPattern none 0 value.toList) (.inl rfl)
  simp only [sanitizeAuditText, String.toList_ofList]
  rw [sub_of_free isWord hbearer', sub_of_free isWord hcredential]

/-! ### Stripped texts -/

theorem strip_eq_self {s : String} : strip s = s ↔
    (∀ c ∈ s.toList.head?, isSpace c = false) ∧ ∀ c ∈ s.toList.getLast?, isSpace c = false := by
  have hstrip : strip s = s ↔ (s.toList.dropWhile isSpace).rdropWhile isSpace = s.toList := by
    show String.ofList ((s.toList.dropWhile isSpace).rdropWhile isSpace) = s ↔ _
    rw [← String.toList_inj, String.toList_ofList]
  have hfront : s.toList.dropWhile isSpace = s.toList ↔ ∀ c ∈ s.toList.head?, isSpace c = false := by
    cases s.toList with
    | nil => simp
    | cons d l => simp [List.dropWhile_eq_self_iff]
  have hback : s.toList.rdropWhile isSpace = s.toList ↔ ∀ c ∈ s.toList.getLast?, isSpace c = false := by
    rw [List.rdropWhile_eq_self_iff]
    constructor
    · intro h c hc
      obtain ⟨hne, rfl⟩ := List.mem_getLast?_eq_getLast hc
      simpa using h hne
    · intro h hne
      simpa using h _ (List.getLast?_eq_getLast_of_ne_nil hne)
  rw [hstrip, ← hfront, ← hback]
  constructor
  · intro h
    have hsuffix : s.toList.dropWhile isSpace <:+ s.toList := List.dropWhile_suffix _
    have hlength := (List.rdropWhile_prefix isSpace (s.toList.dropWhile isSpace)).length_le
    rw [h] at hlength
    have hdrop := hsuffix.eq_of_length_le hlength
    rw [hdrop] at h
    exact ⟨hdrop, h⟩
  · rintro ⟨hdrop, hrdrop⟩
    rw [hdrop, hrdrop]

variable {value : String} {c : Char}

theorem head_sanitize (h : c ∈ (sanitizeAuditText isWord value).toList.head?) :
    c ∈ value.toList.head? ∨ c = '[' := by
  simp only [sanitizeAuditText, String.toList_ofList] at h
  rcases head_sub isWord (by simp) h with h | h
  · rcases head_sub isWord (by simp) h with h | h
    · exact .inl h
    · exact .inr (Option.some.inj h).symm
  · exact .inr (Option.some.inj h).symm

theorem last_sanitize (h : c ∈ (sanitizeAuditText isWord value).toList.getLast?) :
    c ∈ value.toList.getLast? ∨ c = ']' := by
  simp only [sanitizeAuditText, String.toList_ofList] at h
  rcases last_sub isWord (by simp) h with h | h
  · rcases last_sub isWord (by simp) h with h | h
    · exact .inl h
    · exact .inr (Option.some.inj h).symm
  · exact .inr (Option.some.inj h).symm

theorem strip_sanitize (h : strip value = value) :
    strip (sanitizeAuditText isWord value) = sanitizeAuditText isWord value := by
  obtain ⟨hhead, hlast⟩ := strip_eq_self.mp h
  rw [strip_eq_self]
  constructor
  · intro c hc
    rcases head_sanitize isWord hc with hc | rfl
    · exact hhead c hc
    · decide
  · intro c hc
    rcases last_sanitize isWord hc with hc | rfl
    · exact hlast c hc
    · decide

theorem sanitize_ne_empty (h : value ≠ "") : sanitizeAuditText isWord value ≠ "" := by
  have hlist : value.toList ≠ [] := by simpa using h
  have hfirst := sub_ne_nil isWord (List.cons_ne_nil '[' redacted) bearerPattern none hlist
  have hsecond := sub_ne_nil isWord (List.cons_ne_nil '[' redacted) credentialPattern none hfirst
  simpa [sanitizeAuditText] using hsecond

def asciiWord (c : Char) : Bool := c.isAlphanum || c = '_'

example : sanitizeAuditText asciiWord "see password: x, api-key = y; Bearer z" =
    "see [REDACTED], [REDACTED]; [REDACTED]" := by decide +kernel

end CountyFlow.Memory
