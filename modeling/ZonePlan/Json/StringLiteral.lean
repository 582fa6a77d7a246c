/-
Strings in a JSON text. An escape by number stands for a UTF-16 unit. A string that is read has such units in pairs where a
character takes two of them; in a string that is only skipped, each escape is looked at alone.
-/
import ZonePlan.Json.Fault
import ZonePlan.Text.Numeral
namespace ZonePlan.Json.StringLiteral

/-- the character that a letter behind a backslash stands for -/
def namedEscape? : Char → Option Char
  | '"' => some '"'
  | '\\' => some '\\'
  | '/' => some '/'
  | 'b' => some '\x08'
  | 'f' => some '\x0c'
  | 'n' => some '\n'
  | 'r' => some '\r'
  | 't' => some '\t'
  | _ => none

/-- what to say of a text in which an escape by number does not go on: four bytes at least decide about its digits -/
def noUnit (cs : List Char) : Fault :=
  if (String.ofList cs).utf8ByteSize < 4 then .truncated else .malformed

/-- a unit of four hexadecimal digits, and what follows it -/
def unit (cs : List Char) : Except Fault (Nat × List Char) :=
  match cs with
  | a :: b :: c :: d :: rest =>
    match [a, b, c, d].mapM Text.digitValue? with
    | some ds => .ok (Text.ofDigits 16 ds, rest)
    | none => .error .malformed
  | short => .error (noUnit short)

def isHigh (n : Nat) : Bool := 0xD800 ≤ n && n ≤ 0xDBFF

def isLow (n : Nat) : Bool := 0xDC00 ≤ n && n ≤ 0xDFFF

/-- the character of a high unit that a low one must follow, and what follows that -/
def paired (high : Nat) (cs : List Char) : Except Fault (Char × List Char) :=
  match cs with
  | [] => .error .truncated
  | '\\' :: [] => .error .truncated
  | '\\' :: 'u' :: rest =>
    match unit rest with
    | .error fault => .error fault
    | .ok (low, rest) =>
      if isLow low then .ok (Char.ofNat ((high - 0xD800) * 0x400 + (low - 0xDC00) + 0x10000), rest)
      else .error .malformed
  | _ => .error .malformed

/-- the character of an escape behind its backslash, and what follows it; units are paired only if `pairs` says so -/
def escape (pairs : Bool) (cs : List Char) : Except Fault (Char × List Char) :=
  match cs with
  | [] => .error .truncated
  | 'u' :: rest =>
    match unit rest with
    | .error fault => .error fault
    | .ok (n, rest) =>
      if pairs && isLow n then .error .malformed
      else if pairs && isHigh n then paired n rest
      else .ok (Char.ofNat n, rest)
  | c :: rest =>
    match namedEscape? c with
    | some d => .ok (d, rest)
    | none => .error .malformed

theorem unit_shorter {cs rest : List Char} {n : Nat} (h : unit cs = .ok (n, rest)) : rest.length < cs.length := by
  unfold unit at h
  split at h
  · split at h
    · cases h
      simp only [List.length_cons]
      omega
    · cases h
  · cases h

theorem paired_shorter {cs rest : List Char} {high : Nat} {c : Char} (h : paired high cs = .ok (c, rest)) :
    rest.length < cs.length := by
  unfold paired at h
  split at h
  · cases h
  · cases h
  · split at h
    · cases h
    · next hu =>
      split at h
      · simp only [Except.ok.injEq, Prod.mk.injEq] at h
        obtain ⟨-, rfl⟩ := h
        have := unit_shorter hu
        simp only [List.length_cons]
        omega
      · cases h
  · cases h

theorem escape_shorter {pairs : Bool} {cs rest : List Char} {c : Char} (h : escape pairs cs = .ok (c, rest)) :
    rest.length < cs.length := by
  unfold escape at h
  split at h
  · cases h
  · split at h
    · cases h
    · next hu =>
      have := unit_shorter hu
      split at h
      · cases h
      · split at h
        · have := paired_shorter h
          simp only [List.length_cons]
          omega
        · cases h
          simp only [List.length_cons]
          omega
  · split at h
    · cases h
      simp
    · cases h

/-- the text up to the closing quote behind `done` (in reverse), and what follows the quote -/
def read (pairs : Bool) (done : List Char) (cs : List Char) : Except Fault (String × List Char) :=
  match cs with
  | [] => .error .truncated
  | c :: rest =>
    if c = '"' then .ok (String.ofList done.reverse, rest)
    else if c = '\\' then
      match _found : escape pairs rest with
      | .error fault => .error fault
      | .ok (d, rest) => read pairs (d :: done) rest
    else if c.toNat < 0x20 then .error .malformed
    else read pairs (c :: done) rest
termination_by cs.length
decreasing_by
  · have := escape_shorter ‹_›
    simp only [List.length_cons]
    omega
  · simp

end ZonePlan.Json.StringLiteral
