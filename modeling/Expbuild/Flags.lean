import Mathlib

/-!
Command lines as the package `flag` of Go reads them: `-name=value`, `-name value` and, for
a truth value, `-name`, with one dash or two. A line of assignments is read back value by
value (`parse_assigned`), and a decimal number as the number (`parseInt_toString`).
-/
namespace Expbuild.Flags

/-! ### Numbers -/

/-- The value of a digit in any base. -/
def digit (c : Char) : Option Nat :=
  if c.isDigit then some (c.toNat - 48)
  else if c.isLower then some (c.toNat - 97 + 10)
  else if c.isUpper then some (c.toNat - 65 + 10)
  else none

/-- The number that digits of a base write, after those that wrote the first number. -/
def digits (base : Nat) : Nat → List Char → Option Nat
  | n,[] => some n
  | n,'_' :: rest => digits base n rest
  | n,c :: rest =>
    match digit c with
    | none => none
    | some d => if d < base then digits base (n * base + d) rest else none

/-- The base that a prefix tells, and what follows it. -/
def based : List Char → Nat × List Char
  | '0' :: c :: d :: rest =>
    if c = 'b' ∨ c = 'B' then (2,d :: rest)
    else if c = 'o' ∨ c = 'O' then (8,d :: rest)
    else if c = 'x' ∨ c = 'X' then (16,d :: rest)
    else (8,c :: d :: rest)
  | '0' :: rest => (8,rest)
  | l => (10,l)

/-- Underscores stand between digits; the prefix of a base counts as one. -/
def separated : Bool → List Char → Bool
  | afterDigit,[] => afterDigit
  | afterDigit,'_' :: rest => afterDigit && separated false rest
  | _,_ :: rest => separated true rest

/-- `strconv.ParseUint(s, 0, 64)` -/
def parseUint (l : List Char) : Option Nat :=
  let (base,rest) := based l
  if l ≠ [] ∧ separated (base ≠ 10) rest then (digits base 0 rest).filter (fun n => n < 2 ^ 64) else none

/-- `strconv.ParseInt(s, 0, 64)` -/
def parseInt (s : String) : Option Int :=
  match s.toList with
  | '-' :: rest => ((parseUint rest).filter (fun n => n ≤ 2 ^ 63)).map (fun n => -(n : Int))
  | '+' :: rest => ((parseUint rest).filter (fun n => n < 2 ^ 63)).map (fun n => (n : Int))
  | l => ((parseUint l).filter (fun n => n < 2 ^ 63)).map (fun n => (n : Int))

/-- `strconv.ParseBool` -/
def parseBool (s : String) : Option Bool :=
  if s ∈ ["1","t","T","TRUE","true","True"] then some true
  else if s ∈ ["0","f","F","FALSE","false","False"] then some false
  else none

/-! ### Flags -/

inductive Value where
  | string (s : String)
  | int64 (n : Int)
  | bool (b : Bool)
  deriving DecidableEq,Repr

/-- `Set`: a text read as a value of the same type. -/
def Value.read : Value → String → Option Value
  | .string _,s => some (.string s)
  | .int64 _,s => (parseInt s).map .int64
  | .bool _,s => (parseBool s).map .bool

/-- The flags of a program with the values that they have, the defaults at first. -/
abbrev FlagSet := List (String × Value)

def FlagSet.assign (flags : FlagSet) (name value : String) : Option FlagSet :=
  (flags.lookup name).bind fun old => (old.read value).map fun new =>
    flags.map (fun f => if f.1 = name then (name,new) else f)

inductive Argument where
  /-- No flag, or the two dashes that end the flags. -/
  | ended
  | malformed
  | named (name : String) (value : Option String)
  deriving DecidableEq,Repr

/-- An argument without its dashes; the name is not empty, so an equals sign cannot be first. -/
def named : List Char → Argument
  | [] => .malformed
  | '-' :: _ => .malformed
  | '=' :: _ => .malformed
  | l =>
    .named (String.ofList (l.takeWhile (fun c => c ≠ '=')))
      (match l.dropWhile (fun c => c ≠ '=') with
        | [] => none
        | _ :: value => some (String.ofList value))

def argument (s : String) : Argument :=
  match s.toList with
  | ['-','-'] => .ended
  | '-' :: '-' :: l => named l
  | '-' :: c :: l => named (c :: l)
  | _ => .ended

/-- `Parse`; a line that is refused leaves no flags. -/
def parse : FlagSet → List String → Option FlagSet
  | flags,[] => some flags
  | flags,s :: rest =>
    match argument s with
    | .ended => some flags
    | .malformed => none
    | .named name value =>
      match flags.lookup name,value with
      | none,_ => none
      | some _,some value => (flags.assign name value).bind fun flags => parse flags rest
      | some (.bool _),none => (flags.assign name "true").bind fun flags => parse flags rest
      | some _,none =>
        match rest with
        | [] => none
        | value :: rest => (flags.assign name value).bind fun flags => parse flags rest

/-! ### Reading back -/

theorem digits_decimal {l : List Char} (decimal : ∀ c ∈ l, c.isDigit = true) (n : Nat) :
    digits 10 n l = some (Nat.ofDigitChars 10 l n) := by
  induction l generalizing n with
  | nil => simp [digits]
  | cons c rest ih =>
    have digit_ : c.isDigit = true := decimal c (by simp)
    have range : 48 ≤ c.toNat ∧ c.toNat ≤ 57 := by simpa [Char.isDigit,UInt32.le_iff_toNat_le] using digit_
    have other : c ≠ '_' := by
      rintro rfl
      exact absurd digit_ (by decide)
    have small : c.toNat - 48 < 10 := by omega
    rw [digits.eq_3 10 n c rest other]
    simp only [digit,digit_,if_true,small]
    rw [ih (fun c member => decimal c (by simp [member])),Nat.ofDigitChars_cons,Nat.mul_comm]
    rfl

theorem separated_decimal {l : List Char} (decimal : ∀ c ∈ l, c.isDigit = true) : separated true l = true := by
  induction l with
  | nil => rfl
  | cons c rest ih =>
    have other : c ≠ '_' := by
      rintro rfl
      have digit_ : '_'.isDigit = true := decimal '_' (by simp)
      exact absurd digit_ (by decide)
    rw [separated.eq_3 true c rest other]
    exact ih (fun c member => decimal c (by simp [member]))

/-- The text of a number other than zero does not start with a zero. -/
theorem toDigits_head {n : Nat} (positive : 0 < n) : (Nat.toDigits 10 n).head? ≠ some '0' := by
  induction n using Nat.strong_induction_on with
  | _ n ih =>
    by_cases small : n < 10
    · rw [Nat.toDigits_of_lt_base small]
      interval_cases n <;> decide
    · rw [Nat.toDigits_of_base_le (by omega) (by omega),List.head?_append_of_ne_nil _ Nat.toDigits_ne_nil]
      exact ih (n / 10) (by omega) (by omega)

theorem parseInt_toString {n : Nat} (positive : 0 < n) (bounded : n < 2 ^ 63) : parseInt (toString n) = some (n : Int) := by
  have decimal : ∀ c ∈ Nat.toDigits 10 n, c.isDigit = true := fun c member => Nat.isDigit_of_mem_toDigits (by omega) (by omega) member
  have value : Nat.ofDigitChars 10 (Nat.toDigits 10 n) 0 = n := Nat.ofDigitChars_ten_toDigits
  have head := toDigits_head positive
  unfold parseInt
  rw [Nat.toString_eq_repr,Nat.toList_repr]
  cases text : Nat.toDigits 10 n with
  | nil => exact absurd text Nat.toDigits_ne_nil
  | cons c rest =>
    rw [text] at decimal value head
    have first : c.isDigit = true := decimal c (by simp)
    have plus : c ≠ '+' := by
      rintro rfl
      exact absurd first (by decide)
    have minus : c ≠ '-' := by
      rintro rfl
      exact absurd first (by decide)
    have underscore : c ≠ '_' := by
      rintro rfl
      exact absurd first (by decide)
    have zero : c ≠ '0' := fun same => head (by simp [same])
    have base : based (c :: rest) = (10,c :: rest) := by
      unfold based
      split <;> simp_all
    have apart : separated false (c :: rest) = true := by
      rw [separated.eq_3 false c rest underscore]
      exact separated_decimal (fun c member => decimal c (by simp [member]))
    have read : parseUint (c :: rest) = some n := by
      simp only [parseUint,base,digits_decimal decimal,value]
      simp [apart]
      omega
    split
    · simp_all
    · simp_all
    · rw [read,Option.filter_some_pos (by simpa using bounded)]
      rfl

/-- What the name of a flag consists of. -/
theorem named_assigned {name : String} (value : String) (plain : named name.toList = .named name none) :
    named (name.toList ++ '=' :: value.toList) = .named name (some value) := by
  cases text : name.toList with
  | nil =>
    rw [text] at plain
    cases plain
  | cons c rest =>
    rw [text] at plain
    have minus : c ≠ '-' := by
      rintro rfl
      cases plain
    have equals : c ≠ '=' := by
      rintro rfl
      cases plain
    rw [named.eq_4 (c :: rest) (by simp) (by simp [minus]) (by simp [equals])] at plain
    injection plain with same none_
    have whole : (c :: rest).dropWhile (fun c => c ≠ '=') = [] := by
      cases dropped : (c :: rest).dropWhile (fun c => c ≠ '=') with
      | nil => rfl
      | cons _ _ =>
        rw [dropped] at none_
        cases none_
    have free : ∀ d ∈ c :: rest, decide (d ≠ '=') = true := List.dropWhile_eq_nil_iff.mp whole
    rw [List.cons_append,named.eq_4 _ (by simp) (by simp [minus]) (by simp [equals]),← List.cons_append,
      List.takeWhile_append_of_pos free,List.dropWhile_append_of_pos free]
    simp [← text]

/-- A flag that is given with its value has the value. -/
theorem parse_assigned {flags flags' : FlagSet} {rest : List String} (dashes name value : String)
    (dashed : dashes = "-" ∨ dashes = "--") (plain : named name.toList = .named name none)
    (assigned : flags.assign name value = some flags') :
    parse flags ((dashes ++ name ++ "=" ++ value) :: rest) = parse flags' rest := by
  have read : argument (dashes ++ name ++ "=" ++ value) = .named name (some value) := by
    have line := named_assigned value plain
    cases text : name.toList with
    | nil =>
      rw [text] at plain
      cases plain
    | cons c l =>
      rw [text] at line plain
      have minus : c ≠ '-' := by
        rintro rfl
        cases plain
      rcases dashed with rfl | rfl
      · have list : ("-" ++ name ++ "=" ++ value).toList = '-' :: c :: (l ++ '=' :: value.toList) := by simp [text]
        unfold argument
        rw [list]
        split <;> simp_all
      · have list : ("--" ++ name ++ "=" ++ value).toList = '-' :: '-' :: c :: (l ++ '=' :: value.toList) := by simp [text]
        unfold argument
        rw [list]
        exact line
  obtain ⟨old,found,_⟩ := Option.bind_eq_some_iff.mp assigned
  rw [parse,read]
  simp only [found,assigned,Option.bind_some]

end Expbuild.Flags
