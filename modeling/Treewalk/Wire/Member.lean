import Treewalk.Wire.Escape
import Treewalk.Wire.Value

/-! Members of an object, found by scanning its text for a key. The first key that matches wins,
commas are not needed, and objects under other keys are skipped without being looked at. Every
value found is strictly shorter than the text of the object, so reading inward ends. -/
namespace Treewalk.Wire

open Text (ascii)

/-- Scans for the key and gives what follows its colon. `level` counts the objects entered,
`descend` says whether an opening brace is entered or skipped, and `closed` whether the
outermost object has ended, after which no key is taken. -/
def findKey (key : Text) (level : Int) (descend closed : Bool) (t : Text) : Option Text :=
  match t with
  | [] => none
  | b :: rest =>
    if b = quote then
      match _split : splitString rest with
      | none => none
      | some (content, after) =>
        match _front : skipBlank after with
        | [] => none
        | c :: next =>
          if c = ascii ':' then
            if level ≠ 1 then none
            else
              match unescape content with
              | none => none
              | some name =>
                if name ≠ key then findKey key level false closed next
                else if closed then findKey key level true closed next
                else some next
          else findKey key level descend closed (c :: next)
    else if b = ascii '\x7b' then
      if descend then findKey key (level + 1) descend closed rest
      else
        match _split : block? b (ascii '\x7d') (b :: rest) with
        | none => none
        | some (_, after) => findKey key level descend closed after
    else if b = ascii '\x7d' then
      findKey key (level - 1) descend (closed || level = 1) rest
    else if b = ascii '[' then
      match _split : block? b (ascii ']') (b :: rest) with
      | none => none
      | some (_, after) => findKey key level descend closed after
    else if b = ascii ':' then none
    else findKey key level descend closed rest
termination_by t.length
decreasing_by
  all_goals simp only [List.length_cons]
  all_goals try omega
  all_goals try exact (length_of_block? _split).2
  all_goals
    have bound := length_of_splitString _split
    have blanks := length_skipBlank after
    rw [_front] at blanks
    simp only [List.length_cons] at blanks
    omega

theorem length_of_findKey {key t after : Text} {level : Int} {descend closed : Bool}
    (found : findKey key level descend closed t = some after) : after.length < t.length := by
  fun_induction findKey key level descend closed t
  all_goals grind [→ length_of_block?, → length_of_splitString, length_skipBlank]

/-- A value that lies strictly inside a text. -/
abbrev Inner (data : Text) := { v : Value // v.raw.length < data.length }

def member (key data : Text) : Except ReadError (Inner data) :=
  match found : findKey key 0 true false data with
  | none => .error .keyNotFound
  | some after =>
    match read : readValue after with
    | .ok (v, _) =>
      .ok ⟨v, Nat.lt_of_le_of_lt (length_of_readValue read).1 (length_of_findKey found)⟩
    | .error e => .error e

def textMember (key data : Text) : Option Text :=
  match member key data with
  | .ok ⟨⟨.string, raw⟩, _⟩ => unescape raw
  | _ => none

/-- Accumulates digits at 64 bits. An overflow is noticed only when the number becomes smaller,
so some numbers that are too large wrap around unnoticed. -/
def accumulate (v : Int64) : Text → Except ReadError Int64
  | [] => .ok v
  | b :: rest =>
    if Text.isDigit b then
      let next := 10 * v + Int64.ofNat (Text.digitValue b)
      if next < v then .error .overflow else accumulate next rest
    else .error .badValue

/-- The integer that a number token stands for; a minus sign alone is zero. -/
def readNumber : Text → Except ReadError Int64
  | [] => .error .badValue
  | b :: rest =>
    if b = ascii '-' then
      if rest = Text.ofString "9223372036854775808" then .ok Int64.minValue
      else (accumulate 0 rest).map (- ·)
    else accumulate 0 (b :: rest)

def intMember (key data : Text) : Except ReadError Int64 :=
  match member key data with
  | .ok ⟨⟨.number, raw⟩, _⟩ => readNumber raw
  | .ok ⟨v, _⟩ => .error (.notANumber v.raw)
  | .error e => .error e

def boolMember (key data : Text) : Except ReadError Bool :=
  match member key data with
  | .ok ⟨⟨.boolean, raw⟩, _⟩ => .ok (raw = Text.ofString "true")
  | .ok ⟨v, _⟩ => .error (.notABoolean v.raw)
  | .error e => .error e

def elements (t : Text) : Except ReadError (List Value) :=
  match _read : readValue t with
  | .error e => .error e
  | .ok (v, after) =>
    match _front : skipBlank after with
    | [] => .error .unclosedArray
    | b :: rest =>
      if b = ascii ']' then .ok [v]
      else if b = ascii ',' then (elements rest).map (v :: ·)
      else .error .unclosedArray
termination_by t.length
decreasing_by
  have bound := (length_of_readValue _read).2
  have blanks := length_skipBlank after
  rw [_front] at blanks
  simp only [List.length_cons] at blanks
  omega

theorem length_of_elements {t : Text} {vs : List Value} (read : elements t = .ok vs) :
    ∀ v ∈ vs, v.raw.length ≤ t.length := by
  fun_induction elements t generalizing vs with
  | case4 t v after value rest front _ ih =>
    cases inner : elements rest with
    | error e => simp [inner, Except.map] at read
    | ok tail =>
      simp only [inner, Except.map, Except.ok.injEq] at read
      have bound := length_of_readValue value
      have blanks := length_skipBlank after
      have tailBound := ih inner
      grind
  | _ => grind [→ length_of_readValue]

def arrayMember (key data : Text) : Except ReadError (List (Inner data)) :=
  match found : findKey key 0 true false data with
  | none => .error .keyNotFound
  | some after =>
    match front : skipBlank after with
    | [] => .error .noValue
    | b :: rest =>
      if b = ascii '[' then
        match skipBlank rest with
        | [] => .error .noValue
        | c :: _ =>
          if c = ascii ']' then .ok []
          else
            match read : elements rest with
            | .error e => .error e
            | .ok vs =>
              .ok <| vs.attach.map fun ⟨v, listed⟩ => ⟨v, by
                have bound := length_of_elements read v listed
                have blanks := length_skipBlank after
                have shorter := length_of_findKey found
                rw [front] at blanks
                simp only [List.length_cons] at blanks
                omega⟩
      else .error .unclosedArray

end Treewalk.Wire
