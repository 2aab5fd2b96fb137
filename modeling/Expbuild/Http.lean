import Mathlib

/-!
What a handler sees of an HTTP request, and what Go's standard library reads in
it. Texts are lists of bytes: nothing promises that they are UTF-8.
-/
namespace Expbuild.Http

abbrev Text := List UInt8

/-- The bytes of a literal. -/
def bytes (s : String) : Text := s.toUTF8.toList

/-- The string of ASCII bytes; any other byte becomes a character that is not ASCII. -/
def ascii (text : Text) : String := String.ofList (text.map (fun b => Char.ofNat b.toNat))

/-- A request: what is left of the connection is the body. -/
structure Request where
  method : String
  path : Text
  /-- Not empty where the path was encoded in another way than `path` would be. -/
  rawPath : Text
  rawQuery : Text
  /-- The values of `Authorization`, in the order of the headers. -/
  authorization : List Text
  contentLength : Int
  /-- The values of the other headers. -/
  header : String → List String
  /-- The `hashes` that `json.Decode` reads in a body of at most 64 KiB, if it is such an object. -/
  hashes : Option (List String)
  /-- Whether it reads a list of anything in such a body. -/
  events : Bool

/-! ### Separators -/

section separators
variable {text : Text} {sep : UInt8}

/-- `strings.Split` with a separator of one byte. -/
def split (sep : UInt8) (text : Text) : List Text := text.splitOn sep

/-- `strings.Cut` with a separator of one byte. -/
def cut (sep : UInt8) : Text → Option (Text × Text)
  | [] => none
  | b :: rest => if b = sep then some ([],rest) else (cut sep rest).map (fun parts => (b :: parts.1,parts.2))

/-- `strings.TrimSuffix` with a suffix of one byte. -/
def trimSuffix (last : UInt8) (text : Text) : Text := if text.getLast? = some last then text.dropLast else text

/-- The parts of a text, with the separator between them, are the text. -/
theorem intercalate_split : [sep].intercalate (split sep text) = text := List.intercalate_splitOn sep

theorem split_cons (b : UInt8) :
    split sep (b :: text) = if b = sep then [] :: split sep text else (split sep text).modifyHead (b :: ·) := by
  unfold split
  rw [List.splitOn,List.splitOnP_cons_eq_if_modifyHead]
  simp [List.splitOn]

theorem split_ne_nil : split sep text ≠ [] := List.splitOnP_ne_nil _ _

/-- No part has the separator in it. -/
theorem not_mem_split {part : Text} (member : part ∈ split sep text) : sep ∉ part := by
  induction text generalizing part with
  | nil =>
    obtain rfl : part = [] := by simpa [split] using member
    simp
  | cons b rest ih =>
    rw [split_cons] at member
    by_cases same : b = sep
    · rw [if_pos same] at member
      rcases List.mem_cons.mp member with rfl | later
      · simp
      · exact ih later
    · rw [if_neg same] at member
      cases parts : split sep rest with
      | nil => exact absurd parts split_ne_nil
      | cons first others =>
        rw [parts] at member ih
        rcases List.mem_cons.mp member with rfl | later
        · simp only [List.mem_cons,not_or]
          exact ⟨fun equal => same equal.symm,ih List.mem_cons_self⟩
        · exact ih (List.mem_cons_of_mem _ later)

/-- A text of two parts has one separator. -/
theorem split_two {first second : Text} :
    split sep text = [first,second] ↔ text = first ++ sep :: second ∧ sep ∉ first ∧ sep ∉ second := by
  constructor
  · intro parts
    refine ⟨?_,not_mem_split (by rw [parts]; simp),not_mem_split (by rw [parts]; simp)⟩
    have joined : [sep].intercalate (split sep text) = text := intercalate_split
    rw [← joined,parts]
    simp [List.intercalate]
  · rintro ⟨rfl,clean,clean'⟩
    have parts : ([sep].intercalate [first,second]).splitOn sep = [first,second] :=
      List.splitOn_intercalate sep (by simp [clean,clean']) (by simp)
    simpa [List.intercalate,split] using parts

end separators

/-! ### Headers -/

/-- `strings.EqualFold` with a literal of letters that fold in ASCII only. -/
def equalFold (text : Text) (literal : String) : Bool :=
  let lower (b : UInt8) : UInt8 := if 65 ≤ b ∧ b ≤ 90 then b + 32 else b
  text.map lower = (bytes literal).map lower

/-- The value of a digit of `base64.StdEncoding`. -/
def sextet (b : UInt8) : Option Nat :=
  let n := b.toNat
  if 65 ≤ n ∧ n ≤ 90 then some (n - 65)
  else if 97 ≤ n ∧ n ≤ 122 then some (n - 71)
  else if 48 ≤ n ∧ n ≤ 57 then some (n + 4)
  else if n = 43 then some 62
  else if n = 47 then some 63
  else none

/-- The bytes of a quantum of four digits, or of three or two before padding. -/
def quantum : List Nat → Text
  | [a,b,c,d] => [UInt8.ofNat (a * 4 + b / 16),UInt8.ofNat (b % 16 * 16 + c / 4),UInt8.ofNat (c % 4 * 64 + d)]
  | [a,b,c] => [UInt8.ofNat (a * 4 + b / 16),UInt8.ofNat (b % 16 * 16 + c / 4)]
  | [a,b] => [UInt8.ofNat (a * 4 + b / 16)]
  | _ => []

/-- Padding ends the text. -/
def quanta : Text → Option Text
  | [] => some []
  | [a,b,61,61] => ([a,b].mapM sextet).map quantum
  | [a,b,c,61] => ([a,b,c].mapM sextet).map quantum
  | a :: b :: c :: d :: rest => do
    let digits ← [a,b,c,d].mapM sextet
    let others ← quanta rest
    return quantum digits ++ others
  | _ => none

/-- `base64.StdEncoding.DecodeString`, which skips line ends. -/
def decodeBase64 (text : Text) : Option Text := quanta (text.filter (fun b => b ≠ 13 && b ≠ 10))

/-- `r.BasicAuth`: the user and the password of the first `Authorization`. -/
def basicAuth (r : Request) : Option (Text × Text) := do
  let value ← r.authorization.head?
  if equalFold (value.take 6) "Basic " then
    let credentials ← decodeBase64 (value.drop 6)
    cut 58 credentials
  else none

/-! ### Queries -/

def hexDigit (b : UInt8) : Option Nat :=
  let n := b.toNat
  if 48 ≤ n ∧ n ≤ 57 then some (n - 48)
  else if 65 ≤ n ∧ n ≤ 70 then some (n - 55)
  else if 97 ≤ n ∧ n ≤ 102 then some (n - 87)
  else none

/-- `url.QueryUnescape` -/
def queryUnescape : Text → Option Text
  | [] => some []
  | 37 :: a :: b :: rest => do
    let high ← hexDigit a
    let low ← hexDigit b
    let others ← queryUnescape rest
    return UInt8.ofNat (high * 16 + low) :: others
  | b :: rest => if b = 37 then none else (queryUnescape rest).map ((if b = 43 then 32 else b) :: ·)

/-- `url.ParseQuery`: the pairs of key and value, unless one of them is malformed. -/
def parseQuery (query : Text) : Option (List (Text × Text)) :=
  ((split 38 query).filter (· ≠ [])).mapM (fun pair => do
    if 59 ∈ pair then none
    else
      let (key,value) := (cut 61 pair).getD (pair,[])
      return (← queryUnescape key,← queryUnescape value))

/-- The values of a key of `url.Values`. -/
def values (query : List (Text × Text)) (key : Text) : List Text := (query.filter (fun pair => pair.1 = key)).map (·.2)

/-- The keys of `url.Values`. -/
def keys (query : List (Text × Text)) : List Text := (query.map (·.1)).dedup

/-- A query of one key with one value has one pair. -/
theorem single_pair {query : List (Text × Text)} {key value : Text} (one : (keys query).length = 1)
    (found : values query key = [value]) : query = [(key,value)] := by
  have member : (key,value) ∈ query := by
    have inside : value ∈ values query key := by rw [found]; simp
    obtain ⟨⟨key',value'⟩,kept,rfl⟩ := List.mem_map.mp inside
    obtain ⟨present,same⟩ := List.mem_filter.mp kept
    simp only [decide_eq_true_eq] at same
    rwa [same] at present
  have only : ∀ pair ∈ query, pair.1 = key := by
    obtain ⟨k,single⟩ := List.length_eq_one_iff.mp one
    have all : ∀ pair ∈ query, pair.1 = k := by
      intro pair inside
      have mine : pair.1 ∈ keys query := List.mem_dedup.mpr (List.mem_map_of_mem inside)
      simpa [single] using mine
    intro pair inside
    rw [all pair inside,← all _ member]
  have whole : query.filter (fun pair => pair.1 = key) = query := by
    rw [List.filter_eq_self]
    intro pair inside
    exact decide_eq_true (only pair inside)
  unfold values at found
  rw [whole] at found
  obtain ⟨pair,rfl,same⟩ := List.map_eq_singleton_iff.mp found
  rw [← only pair (by simp),← same]

end Expbuild.Http
