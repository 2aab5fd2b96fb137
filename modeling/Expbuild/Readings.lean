import Expbuild.Quantities

/-!
What a quantity of Kubernetes means: a decimal number with a suffix, read as a
rational number. `Reads` is the reading, `Refused` what has none within the limits;
the comparison and the rounding of `Quantities` are exact for it
(`quantities_exact`).
-/
namespace Expbuild.Readings
open Expbuild.Quantities

/-! ### The grammar -/

def Digits (text : List Char) : Prop := ∀ c ∈ text, c.isDigit = true

/-- The number that digits stand for. -/
def natural (digits : List Char) : Nat := Nat.ofDigitChars 10 digits 0

/-- A decimal number, whose point may stand before, between or after its digits. -/
inductive Number : List Char → ℚ → Prop where
  | integral {whole : List Char} (digits : Digits whole) (some_ : whole ≠ []) : Number whole (natural whole)
  | pointed {whole fraction : List Char} (before : Digits whole) (after : Digits fraction)
      (some_ : whole ≠ [] ∨ fraction ≠ []) :
      Number (whole ++ '.' :: fraction) (natural whole + natural fraction / 10 ^ fraction.length)

/-- The decimal suffixes with their powers of ten. -/
def decimals : List (Char × Int) :=
  [('n',-9),('u',-6),('m',-3),('k',3),('M',6),('G',9),('T',12),('P',15),('E',18)]
/-- The binary suffixes, before their `i`, with their powers of 1024. -/
def binaries : List (Char × Nat) := [('K',1),('M',2),('G',3),('T',4),('P',5),('E',6)]

/-- An integer, which may be signed. -/
inductive Signed : List Char → Int → Prop where
  | plain {digits : List Char} (all : Digits digits) (some_ : digits ≠ []) : Signed digits (natural digits)
  | plus {digits : List Char} (all : Digits digits) (some_ : digits ≠ []) : Signed ('+' :: digits) (natural digits)
  | minus {digits : List Char} (all : Digits digits) (some_ : digits ≠ []) : Signed ('-' :: digits) (-natural digits)

/-- A suffix, its factor and the exponent that is written out in it. -/
inductive Suffix : List Char → ℚ → Int → Prop where
  | nothing : Suffix [] 1 0
  | decimal {c : Char} {power : Int} (known : (c,power) ∈ decimals) : Suffix [c] (10 ^ power) 0
  | binary {c : Char} {power : Nat} (known : (c,power) ∈ binaries) : Suffix [c,'i'] (1024 ^ power) 0
  | exponent {c : Char} {text : List Char} {power : Int} (mark : c = 'e' ∨ c = 'E') (reads : Signed text power) :
      Suffix (c :: text) (10 ^ power) power

/-- A string of the grammar, with its value and the exponent that is written out in it. -/
def Grammar (value : String) (q : ℚ) (power : Int) : Prop :=
  ∃ sign number suffix v factor, value.toList = sign ++ (number ++ suffix) ∧ (sign = [] ∨ sign = ['+']) ∧
    Number number v ∧ Suffix suffix factor power ∧ q = v * factor

/-- The value of a quantity within the limits. -/
def Reads (value : String) (q : ℚ) : Prop :=
  value.length ≤ 128 ∧ ∃ power, power.natAbs ≤ 128 ∧ Grammar value q power

/-- A string that is too long, outside the grammar, or whose exponent is out of range. -/
def Refused (value : String) : Prop :=
  128 < value.length ∨ (∀ q power, ¬Grammar value q power) ∨ ∃ q power, Grammar value q power ∧ 128 < power.natAbs

/-! ### What is read -/

/-- A fraction stands for a number. -/
def Stands (fraction : Nat × Nat) (q : ℚ) : Prop := 0 < fraction.2 ∧ q = fraction.1 / fraction.2

theorem decimals_power {c : Char} {power : Int} : (c,power) ∈ decimals ↔ decimalPower c = some power := by
  constructor
  · intro known
    simp only [decimals,List.mem_cons,Prod.mk.injEq,List.not_mem_nil,or_false] at known
    rcases known with ⟨rfl,rfl⟩ | ⟨rfl,rfl⟩ | ⟨rfl,rfl⟩ | ⟨rfl,rfl⟩ | ⟨rfl,rfl⟩ | ⟨rfl,rfl⟩ | ⟨rfl,rfl⟩ | ⟨rfl,rfl⟩ | ⟨rfl,rfl⟩ <;> rfl
  · intro known
    unfold decimalPower at known
    split at known <;> cases known <;> decide

theorem binaries_power {c : Char} {power : Nat} : (c,power) ∈ binaries ↔ binaryPower c = some power := by
  constructor
  · intro known
    simp only [binaries,List.mem_cons,Prod.mk.injEq,List.not_mem_nil,or_false] at known
    rcases known with ⟨rfl,rfl⟩ | ⟨rfl,rfl⟩ | ⟨rfl,rfl⟩ | ⟨rfl,rfl⟩ | ⟨rfl,rfl⟩ | ⟨rfl,rfl⟩ <;> rfl
  · intro known
    unfold binaryPower at known
    split at known <;> cases known <;> decide

/-- No digits begin with a sign. -/
theorem sign_of_digits {c : Char} {rest : List Char} (digits : Digits (c :: rest)) : c ≠ '+' ∧ c ≠ '-' ∧ c ≠ '.' := by
  have digit := digits c List.mem_cons_self
  refine ⟨?_,?_,?_⟩ <;> rintro rfl <;> exact absurd digit (by decide)

theorem exponent_signed {text : List Char} {power : Int} : exponent text = some power ↔ Signed text power := by
  constructor
  · intro read
    unfold exponent at read
    split at read
    rename_i negative digits split_
    split at read
    · rename_i good
      obtain ⟨some_,all⟩ := good
      have digits_ : Digits digits := fun c member => List.all_eq_true.mp all c member
      cases read
      split at split_ <;> cases split_
      · exact .plus digits_ some_
      · exact .minus digits_ some_
      · exact .plain digits_ some_
    · cases read
  · intro signed
    have read {digits : List Char} (all : Digits digits) (some_ : digits ≠ []) :
        digits ≠ [] ∧ digits.all Char.isDigit = true := ⟨some_,List.all_eq_true.mpr all⟩
    cases signed with
    | @plain digits all some_ =>
      cases text with
      | nil => exact absurd rfl some_
      | cons c rest =>
        obtain ⟨plus,minus,_⟩ := sign_of_digits all
        unfold exponent
        split
        rename_i negative digits split_
        split at split_
        · rename_i h; cases h; exact absurd rfl plus
        · rename_i h; cases h; exact absurd rfl minus
        · cases split_
          simp [read all some_,natural]
    | plus all some_ => simp [exponent,read all some_,natural]
    | minus all some_ => simp [exponent,read all some_,natural]

theorem scale_stands {power : Int} {fraction : Nat × Nat} {q : ℚ} (stands : Stands fraction q) :
    Stands (scale power fraction) (q * 10 ^ power) := by
  obtain ⟨positive,rfl⟩ := stands
  unfold scale
  by_cases up : 0 ≤ power
  · rw [if_pos up]
    refine ⟨positive,?_⟩
    lift power to Nat using up
    simp only [Int.toNat_natCast,zpow_natCast,Nat.cast_mul,Nat.cast_pow,Nat.cast_ofNat]
    ring
  · rw [if_neg up]
    refine ⟨by positivity,?_⟩
    obtain ⟨n,rfl⟩ : ∃ n : Nat, power = -n := ⟨(-power).toNat,by omega⟩
    simp only [neg_neg,Int.toNat_natCast,zpow_neg,zpow_natCast,Nat.cast_mul,Nat.cast_pow,Nat.cast_ofNat]
    field_simp

/-- A suffix that the code reads is one of the grammar. -/
theorem withSuffix_sound {fraction result : Nat × Nat} {suffix : List Char} {q : ℚ} (stands : Stands fraction q)
    (read : withSuffix fraction suffix = some result) :
    ∃ factor power, Suffix suffix factor power ∧ power.natAbs ≤ 128 ∧ Stands result (q * factor) := by
  unfold withSuffix at read
  split at read
  · cases read
    exact ⟨1,0,.nothing,by decide,by simpa using stands⟩
  · obtain ⟨power,known,rfl⟩ := Option.map_eq_some_iff.mp read
    exact ⟨_,0,.decimal (decimals_power.mpr known),by decide,scale_stands stands⟩
  · obtain ⟨power,known,rfl⟩ := Option.map_eq_some_iff.mp read
    refine ⟨_,0,.binary (binaries_power.mpr known),by decide,stands.1,?_⟩
    rw [stands.2]
    push_cast
    ring
  · rename_i c rest _ _
    simp only [Option.bind_eq_bind,Option.bind_eq_some_iff,Option.pure_def,Option.some.injEq,Option.guard_eq_some'] at read
    obtain ⟨_,mark,power,signed,_,bounded,rfl⟩ := read
    exact ⟨_,power,.exponent mark (exponent_signed.mp signed),bounded,scale_stands stands⟩

/-- A suffix of the grammar is read, if its exponent is in range. -/
theorem withSuffix_complete {fraction : Nat × Nat} {suffix : List Char} {q factor : ℚ} {power : Int}
    (stands : Stands fraction q) (suffixed : Suffix suffix factor power) :
    ∃ result, Stands result (q * factor) ∧
      withSuffix fraction suffix = if power.natAbs ≤ 128 then some result else none := by
  cases suffixed with
  | nothing => exact ⟨fraction,by simpa using stands,rfl⟩
  | decimal known => exact ⟨_,scale_stands stands,by simp [withSuffix,decimals_power.mp known]⟩
  | @binary c p known =>
    refine ⟨(fraction.1 * 1024 ^ p,fraction.2),⟨stands.1,?_⟩,by simp [withSuffix,binaries_power.mp known]⟩
    rw [stands.2]
    push_cast
    ring
  | @exponent c text _ mark signed =>
    refine ⟨_,scale_stands stands,?_⟩
    have read := exponent_signed.mpr signed
    -- the text of an exponent is neither empty nor an `i`
    have longer : withSuffix fraction (c :: text) = (do
        guard (c = 'e' ∨ c = 'E')
        let power ← Quantities.exponent text
        guard (power.natAbs ≤ 128)
        return scale power fraction) := by
      unfold withSuffix
      split
      · rename_i h; cases h
      · rename_i h; cases h; cases read
      · rename_i h; cases h; rw [show Quantities.exponent ['i'] = none from by decide] at read; cases read
      · rename_i h; cases h; rfl
    rw [longer,read]
    by_cases bounded : power.natAbs ≤ 128
    · simp [guard,mark,bounded]
    · simp [guard,mark,bounded]

/-! ### Whole strings -/

/-- The text after a leading `+`. -/
def unsigned : List Char → List Char
  | '+' :: rest => rest
  | rest => rest

/-- The digits before the point, those after it, and what follows. -/
def parts (text : List Char) : List Char × List Char × List Char :=
  (text.takeWhile Char.isDigit,match text.dropWhile Char.isDigit with
    | '.' :: rest => (rest.takeWhile Char.isDigit,rest.dropWhile Char.isDigit)
    | rest => ([],rest))

/-- The fraction of the digits before and after a point. -/
def fractionOf (whole fraction : List Char) : Nat × Nat := (natural (whole ++ fraction),10 ^ fraction.length)

theorem rational_eq {value : String} {whole fraction suffix : List Char}
    (split_ : parts (unsigned value.toList) = (whole,fraction,suffix)) :
    rational value = if value.length ≤ 128 ∧ (whole ≠ [] ∨ fraction ≠ []) then
      withSuffix (fractionOf whole fraction) suffix else none := by
  have unfolded : rational value = (do
      guard (value.length ≤ 128)
      let p := parts (unsigned value.toList)
      guard (p.1 ≠ [] ∨ p.2.1 ≠ [])
      withSuffix (fractionOf p.1 p.2.1) p.2.2) := rfl
  rw [unfolded,split_]
  by_cases short : value.length ≤ 128
  · by_cases some_ : whole ≠ [] ∨ fraction ≠ []
    · simp [guard,short,some_]
    · simp [guard,short,some_]
  · simp [guard,short]

theorem digits_takeWhile (text : List Char) : Digits (text.takeWhile Char.isDigit) :=
  fun _ member => List.mem_takeWhile_imp member

theorem fractionOf_stands (whole fraction : List Char) :
    Stands (fractionOf whole fraction) (natural whole + natural fraction / 10 ^ fraction.length) := by
  refine ⟨by simp [fractionOf],?_⟩
  have joined : natural (whole ++ fraction) = 10 ^ fraction.length * natural whole + natural fraction := by
    unfold natural
    rw [Nat.ofDigitChars_append,Nat.ofDigitChars_eq_ofDigitChars_zero]
  simp only [fractionOf,joined]
  push_cast
  field_simp

theorem unsigned_split (text : List Char) : ∃ sign, (sign = [] ∨ sign = ['+']) ∧ text = sign ++ unsigned text := by
  unfold unsigned
  split
  · exact ⟨['+'],.inr rfl,rfl⟩
  · exact ⟨[],.inl rfl,rfl⟩

/-- What `parts` finds are the parts of the text. -/
theorem parts_split {text whole fraction suffix : List Char} (split_ : parts text = (whole,fraction,suffix))
    (some_ : whole ≠ [] ∨ fraction ≠ []) :
    ∃ number v, text = number ++ suffix ∧ Number number v ∧ Stands (fractionOf whole fraction) v := by
  simp only [parts,Prod.mk.injEq] at split_
  obtain ⟨rfl,rest⟩ := split_
  have joined := List.takeWhile_append_dropWhile (p := Char.isDigit) (l := text)
  split at rest
  · rename_i after point
    cases rest
    refine ⟨_,_,?_,.pointed (digits_takeWhile text) (digits_takeWhile after) some_,fractionOf_stands _ _⟩
    rw [List.append_assoc,List.cons_append,List.takeWhile_append_dropWhile,← point]
    exact joined.symm
  · cases rest
    have digits : text.takeWhile Char.isDigit ≠ [] := by simpa using some_
    refine ⟨_,_,joined.symm,.integral (digits_takeWhile text) digits,?_⟩
    simpa [natural] using fractionOf_stands (text.takeWhile Char.isDigit) []

/-- What is read is a quantity, and the fraction is its value. -/
theorem rational_sound {value : String} {fraction : Nat × Nat} (read : rational value = some fraction) :
    ∃ q, Reads value q ∧ Stands fraction q := by
  obtain ⟨sign,signed,text⟩ := unsigned_split value.toList
  obtain ⟨⟨whole,after,suffix⟩,split_⟩ : ∃ p, parts (unsigned value.toList) = p := ⟨_,rfl⟩
  rw [rational_eq split_] at read
  split at read
  · rename_i good
    obtain ⟨number,v,joined,numbered,stands⟩ := parts_split split_ good.2
    obtain ⟨factor,power,suffixed,bounded,result⟩ := withSuffix_sound stands read
    rw [joined] at text
    exact ⟨_,⟨good.1,power,bounded,sign,number,suffix,v,factor,text,signed,numbered,suffixed,rfl⟩,result⟩
  · cases read

/-- A suffix begins neither with a digit nor with a point. -/
theorem Suffix.head {text rest : List Char} {factor : ℚ} {power : Int} {c : Char} (suffix : Suffix text factor power)
    (begins : text = c :: rest) : c.isDigit = false ∧ c ≠ '.' := by
  cases suffix with
  | nothing => cases begins
  | decimal known =>
    cases begins
    simp only [decimals,List.mem_cons,Prod.mk.injEq,List.not_mem_nil,or_false] at known
    rcases known with ⟨rfl,_⟩ | ⟨rfl,_⟩ | ⟨rfl,_⟩ | ⟨rfl,_⟩ | ⟨rfl,_⟩ | ⟨rfl,_⟩ | ⟨rfl,_⟩ | ⟨rfl,_⟩ | ⟨rfl,_⟩ <;> decide
  | binary known =>
    cases begins
    simp only [binaries,List.mem_cons,Prod.mk.injEq,List.not_mem_nil,or_false] at known
    rcases known with ⟨rfl,_⟩ | ⟨rfl,_⟩ | ⟨rfl,_⟩ | ⟨rfl,_⟩ | ⟨rfl,_⟩ | ⟨rfl,_⟩ <;> decide
  | exponent mark _ =>
    cases begins
    rcases mark with rfl | rfl <;> decide

/-- Digits end where something else begins. -/
theorem span_digits {digits rest : List Char} (all : Digits digits) (ends : ∀ c more, rest = c :: more → c.isDigit = false) :
    (digits ++ rest).takeWhile Char.isDigit = digits ∧ (digits ++ rest).dropWhile Char.isDigit = rest := by
  rw [List.takeWhile_append_of_pos all,List.dropWhile_append_of_pos all]
  cases rest with
  | nil => simp
  | cons c more => simp [ends c more rfl]

/-- The parts of a number and a suffix are found. -/
theorem parts_joined {number suffix : List Char} {v factor : ℚ} {power : Int} (numbered : Number number v)
    (suffixed : Suffix suffix factor power) : ∃ whole fraction, parts (number ++ suffix) = (whole,fraction,suffix) ∧
      (whole ≠ [] ∨ fraction ≠ []) ∧ Stands (fractionOf whole fraction) v := by
  have ends : ∀ c more, suffix = c :: more → c.isDigit = false := fun c more begins => (suffixed.head begins).1
  cases numbered with
  | integral digits some_ =>
    obtain ⟨taken,dropped⟩ := span_digits digits ends
    refine ⟨number,[],?_,.inl some_,by simpa [natural] using fractionOf_stands number []⟩
    unfold parts
    rw [taken,dropped]
    split
    · exact absurd rfl (suffixed.head rfl).2
    · rfl
  | @pointed whole fraction before after some_ =>
    have point : ∀ c more, '.' :: fraction ++ suffix = c :: more → c.isDigit = false := by
      intro c more begins
      cases begins
      decide
    obtain ⟨taken,dropped⟩ := span_digits before point
    obtain ⟨takenAfter,droppedAfter⟩ := span_digits after ends
    refine ⟨whole,fraction,?_,some_,fractionOf_stands whole fraction⟩
    unfold parts
    rw [List.append_assoc,taken,dropped]
    simp only [List.cons_append,takenAfter,droppedAfter]

/-- A number does not begin with a sign. -/
theorem unsigned_number {sign number suffix : List Char} {v : ℚ} (signed : sign = [] ∨ sign = ['+'])
    (numbered : Number number v) : unsigned (sign ++ (number ++ suffix)) = number ++ suffix := by
  rcases signed with rfl | rfl
  · rw [List.nil_append]
    unfold unsigned
    split
    · rename_i rest begins
      cases numbered with
      | integral digits some_ =>
        cases number with
        | nil => exact absurd rfl some_
        | cons c more => cases begins; exact absurd rfl (sign_of_digits digits).1
      | @pointed whole fraction before _ _ =>
        cases whole with
        | nil => cases begins
        | cons c more => cases begins; exact absurd rfl (sign_of_digits before).1
    · rfl
  · rfl

/-- A string of the grammar is read exactly within the limits. -/
theorem rational_complete {value : String} {q : ℚ} {power : Int} (grammar : Grammar value q power) :
    ∃ fraction, Stands fraction q ∧
      rational value = if value.length ≤ 128 ∧ power.natAbs ≤ 128 then some fraction else none := by
  obtain ⟨sign,number,suffix,v,factor,text,signed,numbered,suffixed,rfl⟩ := grammar
  obtain ⟨whole,fraction,split_,some_,stands⟩ := parts_joined numbered suffixed
  rw [← unsigned_number signed numbered,← text] at split_
  obtain ⟨result,result_stands,read⟩ := withSuffix_complete stands suffixed
  refine ⟨result,result_stands,?_⟩
  rw [rational_eq split_,read]
  by_cases short : value.length ≤ 128
  · simp [short,some_]
  · simp [short]

theorem Stands.unique {fraction : Nat × Nat} {p q : ℚ} (one : Stands fraction p) (two : Stands fraction q) : p = q :=
  one.2.trans two.2.symm

theorem reads_iff {value : String} {q : ℚ} : Reads value q ↔ ∃ fraction, rational value = some fraction ∧ Stands fraction q := by
  constructor
  · rintro ⟨short,power,bounded,grammar⟩
    obtain ⟨fraction,stands,read⟩ := rational_complete grammar
    rw [if_pos ⟨short,bounded⟩] at read
    exact ⟨fraction,read,stands⟩
  · rintro ⟨fraction,read,stands⟩
    obtain ⟨p,reads,other⟩ := rational_sound read
    rw [stands.unique other]
    exact reads

theorem refused_iff {value : String} : Refused value ↔ rational value = none := by
  constructor
  · rintro (long | foreign | ⟨q,power,grammar,beyond⟩)
    · rw [rational_eq (show parts (unsigned value.toList) = (_,_,_) from rfl),if_neg]
      intro good
      omega
    · rw [Option.eq_none_iff_forall_ne_some]
      intro fraction read
      obtain ⟨q,⟨_,power,_,grammar⟩,_⟩ := rational_sound read
      exact foreign q power grammar
    · obtain ⟨fraction,_,read⟩ := rational_complete grammar
      rw [read,if_neg]
      intro good
      omega
  · intro unread
    by_cases long : 128 < value.length
    · exact .inl long
    · by_cases known : ∃ q power, Grammar value q power
      · obtain ⟨q,power,grammar⟩ := known
        obtain ⟨fraction,_,read⟩ := rational_complete grammar
        refine .inr (.inr ⟨q,power,grammar,?_⟩)
        by_contra bounded
        rw [if_pos ⟨by omega,by omega⟩,unread] at read
        cases read
      · exact .inr (.inl (fun q power grammar => known ⟨q,power,grammar⟩))

theorem Reads.unique {value : String} {p q : ℚ} (one : Reads value p) (two : Reads value q) : p = q := by
  obtain ⟨fraction,read,stands⟩ := reads_iff.mp one
  obtain ⟨fraction',read',stands'⟩ := reads_iff.mp two
  rw [read] at read'
  cases read'
  exact stands.unique stands'

theorem Reads.not_refused {value : String} {q : ℚ} (reads : Reads value q) : ¬Refused value := by
  intro refused
  obtain ⟨fraction,read,_⟩ := reads_iff.mp reads
  rw [refused_iff.mp refused] at read
  cases read

/-- A whole number with a suffix. -/
theorem reads_whole {n : Nat} {suffix : String} {factor : ℚ} (small : n < 2 ^ 63) (short : suffix.length ≤ 2)
    (suffixed : Suffix suffix.toList factor 0) : Reads (toString n ++ suffix) (n * factor) := by
  refine ⟨?_,0,by decide,[],Nat.toDigits 10 n,suffix.toList,n,factor,by simp,.inl rfl,?_,suffixed,rfl⟩
  · have length : (toString n).length ≤ 19 := (Nat.length_repr_le_iff (by decide)).mpr (by omega)
    rw [String.length_append]
    omega
  · have number : Number (Nat.toDigits 10 n) (natural (Nat.toDigits 10 n)) :=
      .integral (fun c member => Nat.isDigit_of_mem_toDigits (by decide) (by decide) member) Nat.toDigits_ne_nil
    rw [natural,Nat.ofDigitChars_ten_toDigits] at number
    exact number

/-! ### Comparison and rounding -/

theorem exceeds_iff {a b : Nat × Nat} {p q : ℚ} (left : Stands a p) (right : Stands b q) :
    b.1 * a.2 < a.1 * b.2 ↔ q < p := by
  obtain ⟨positive,rfl⟩ := left
  obtain ⟨positive',rfl⟩ := right
  rw [div_lt_div_iff₀ (by exact_mod_cast positive') (by exact_mod_cast positive)]
  exact_mod_cast Iff.rfl

/-- The number of units that a quantity is rounded up to. -/
def Rounds (p unit : ℚ) (n : Int) : Prop := IsLeast {m : Int | p ≤ m * unit} n

theorem Rounds.unique {p unit : ℚ} {m n : Int} (one : Rounds p unit m) (two : Rounds p unit n) : m = n :=
  IsLeast.unique one two

/-- Rounding up in whole numbers. -/
theorem rounds_div {a u : Nat × Nat} {p unit : ℚ} (left : Stands a p) (right : Stands u unit) (positive : 0 < u.1) :
    Rounds p unit ((a.1 * u.2 + a.2 * u.1 - 1) / (a.2 * u.1) : Nat) := by
  obtain ⟨below,rfl⟩ := left
  obtain ⟨below',rfl⟩ := right
  have denominator : 0 < a.2 * u.1 := Nat.mul_pos below positive
  -- a number of units is enough if and only if it is in whole numbers
  have enough (m : Int) : (a.1 / a.2 : ℚ) ≤ m * (u.1 / u.2 : ℚ) ↔ (a.1 * u.2 : Int) ≤ m * (a.2 * u.1) := by
    have b : (0 : ℚ) < a.2 := by exact_mod_cast below
    have b' : (0 : ℚ) < u.2 := by exact_mod_cast below'
    rw [mul_div_assoc',div_le_div_iff₀ b b']
    rw [show (m : ℚ) * u.1 * a.2 = m * (a.2 * u.1) by ring]
    exact_mod_cast Iff.rfl
  have least (m : Int) : (a.1 * u.2 : Int) ≤ m * (a.2 * u.1) ↔ (((a.1 * u.2 + a.2 * u.1 - 1) / (a.2 * u.1) : Nat) : Int) ≤ m := by
    obtain ⟨d,same⟩ : ∃ d, a.2 * u.1 = d + 1 := ⟨a.2 * u.1 - 1,by omega⟩
    have cast : (a.2 : Int) * u.1 = d + 1 := by exact_mod_cast same
    rw [same,cast]
    generalize whole : a.1 * u.2 = n
    have cast' : (a.1 : Int) * u.2 = n := by exact_mod_cast whole
    rw [cast',show n + (d + 1) - 1 = n + d by omega]
    constructor
    · intro fits
      push_cast
      refine Int.lt_add_one_iff.mp ?_
      rw [Int.ediv_lt_iff_lt_mul (by omega)]
      nlinarith
    · intro fits
      push_cast at fits
      have := Int.lt_ediv_add_one_mul_self ((n : Int) + d) (show (0 : Int) < d + 1 by omega)
      nlinarith
  refine ⟨?_,fun m fits => ?_⟩
  · exact (enough _).mpr ((least _).mpr (Int.le_refl _))
  · exact (least m).mp ((enough m).mp fits)

section
variable {actual other : String} {a b : Nat × Nat}

theorem quantityExceeds_some (left : rational actual = some a) (right : rational other = some b) :
    quantityExceeds actual other = some (decide (b.1 * a.2 < a.1 * b.2)) := by
  simp [quantityExceeds,left,right]

theorem quantityExceeds_none (unread : rational actual = none ∨ rational other = none) :
    quantityExceeds actual other = none := by
  rcases unread with left | right
  · simp [quantityExceeds,left]
  · cases left : rational actual <;> simp [quantityExceeds,left,right]

theorem quantityCeil_some (left : rational actual = some a) (right : rational other = some b) :
    quantityCeil actual other =
      if 0 < b.1 ∧ (a.1 * b.2 + a.2 * b.1 - 1) / (a.2 * b.1) ≤ 2147483647 then
        some ((a.1 * b.2 + a.2 * b.1 - 1) / (a.2 * b.1)) else none := by
  simp only [quantityCeil,left,right,Option.bind_eq_bind,Option.bind_some]
  by_cases positive : 0 < b.1
  · by_cases fits : (a.1 * b.2 + a.2 * b.1 - 1) / (a.2 * b.1) ≤ 2147483647
    · simp [guard,positive,fits]
    · simp [guard,positive,fits]
  · simp [guard,positive]

theorem quantityCeil_none (unread : rational actual = none ∨ rational other = none) :
    quantityCeil actual other = none := by
  rcases unread with left | right
  · simp [quantityCeil,left]
  · cases left : rational actual <;> simp [quantityCeil,left,right]

/-- The numerator of a unit is zero only where the unit is. -/
theorem Stands.pos_iff {q : ℚ} (stands : Stands a q) : 0 < a.1 ↔ 0 < q := by
  obtain ⟨positive,rfl⟩ := stands
  have below : (0 : ℚ) < a.2 := by exact_mod_cast positive
  constructor
  · intro above
    exact div_pos (by exact_mod_cast above) below
  · intro above
    by_contra zero
    rw [Nat.eq_zero_of_not_pos zero] at above
    simp at above

theorem Stands.nonneg {q : ℚ} (stands : Stands a q) : 0 ≤ q := by
  rw [stands.2]
  exact div_nonneg (Nat.cast_nonneg _) (Nat.cast_nonneg _)

theorem quantityExceeds_reads {answer : Bool} : quantityExceeds actual other = some answer ↔
    ∃ p q, Reads actual p ∧ Reads other q ∧ (answer = true ↔ q < p) := by
  constructor
  · intro compared
    cases left : rational actual with
    | none => rw [quantityExceeds_none (.inl left)] at compared; cases compared
    | some a =>
      cases right : rational other with
      | none => rw [quantityExceeds_none (.inr right)] at compared; cases compared
      | some b =>
        rw [quantityExceeds_some left right] at compared
        cases compared
        obtain ⟨p,reads,stands⟩ := rational_sound left
        obtain ⟨q,reads',stands'⟩ := rational_sound right
        refine ⟨p,q,reads,reads',?_⟩
        rw [decide_eq_true_eq]
        exact exceeds_iff stands stands'
  · rintro ⟨p,q,reads,reads',decides⟩
    obtain ⟨a,left,stands⟩ := reads_iff.mp reads
    obtain ⟨b,right,stands'⟩ := reads_iff.mp reads'
    rw [quantityExceeds_some left right,Option.some.injEq,Bool.eq_iff_iff,decide_eq_true_eq,decides]
    exact exceeds_iff stands stands'

theorem quantityExceeds_refused : quantityExceeds actual other = none ↔ Refused actual ∨ Refused other := by
  rw [refused_iff,refused_iff]
  constructor
  · intro failed
    cases left : rational actual with
    | none => exact .inl rfl
    | some a =>
      cases right : rational other with
      | none => exact .inr rfl
      | some b => rw [quantityExceeds_some left right] at failed; cases failed
  · exact quantityExceeds_none

theorem quantityCeil_reads {n : Nat} : quantityCeil actual other = some n ↔
    ∃ p unit, Reads actual p ∧ Reads other unit ∧ 0 < unit ∧ Rounds p unit n ∧ n ≤ 2147483647 := by
  constructor
  · intro rounded
    cases left : rational actual with
    | none => rw [quantityCeil_none (.inl left)] at rounded; cases rounded
    | some a =>
      cases right : rational other with
      | none => rw [quantityCeil_none (.inr right)] at rounded; cases rounded
      | some b =>
        rw [quantityCeil_some left right] at rounded
        split at rounded
        · rename_i good
          cases rounded
          obtain ⟨p,reads,stands⟩ := rational_sound left
          obtain ⟨q,reads',stands'⟩ := rational_sound right
          exact ⟨p,q,reads,reads',stands'.pos_iff.mp good.1,rounds_div stands stands' good.1,good.2⟩
        · cases rounded
  · rintro ⟨p,q,reads,reads',positive,rounds,fits⟩
    obtain ⟨a,left,stands⟩ := reads_iff.mp reads
    obtain ⟨b,right,stands'⟩ := reads_iff.mp reads'
    have above := stands'.pos_iff.mpr positive
    have same := (rounds_div stands stands' above).unique rounds
    rw [Int.ofNat_inj] at same
    rw [quantityCeil_some left right,same,if_pos ⟨above,fits⟩]

theorem quantityCeil_refused : quantityCeil actual other = none ↔ Refused actual ∨ Refused other ∨ Reads other 0 ∨
    ∃ p unit n, Reads actual p ∧ Reads other unit ∧ 0 < unit ∧ Rounds p unit n ∧ 2147483647 < n := by
  constructor
  · intro failed
    cases left : rational actual with
    | none => exact .inl (refused_iff.mpr left)
    | some a =>
      cases right : rational other with
      | none => exact .inr (.inl (refused_iff.mpr right))
      | some b =>
        obtain ⟨p,reads,stands⟩ := rational_sound left
        obtain ⟨q,reads',stands'⟩ := rational_sound right
        rw [quantityCeil_some left right] at failed
        by_cases positive : 0 < b.1
        · refine .inr (.inr (.inr ⟨p,q,_,reads,reads',stands'.pos_iff.mp positive,rounds_div stands stands' positive,?_⟩))
          by_contra fits
          rw [if_pos ⟨positive,by omega⟩] at failed
          cases failed
        · have zero : q = 0 := le_antisymm (not_lt.mp (fun above => positive (stands'.pos_iff.mpr above))) stands'.nonneg
          rw [zero] at reads'
          exact .inr (.inr (.inl reads'))
  · intro bad
    rw [Option.eq_none_iff_forall_ne_some]
    intro n rounded
    obtain ⟨p,q,reads,reads',positive,rounds,fits⟩ := quantityCeil_reads.mp rounded
    rcases bad with wrong | wrong | zero | ⟨p',q',m,readsP,readsQ,_,beyond,large⟩
    · exact reads.not_refused wrong
    · exact reads'.not_refused wrong
    · rw [reads'.unique zero] at positive
      exact lt_irrefl _ positive
    · rw [← reads.unique readsP,← reads'.unique readsQ] at beyond
      have same := rounds.unique beyond
      omega

end

/-- The comparison is the one of the values, and rounding gives the least number of
    units; they fail exactly where a string is refused, the unit is zero, or the
    number of units is out of range. -/
theorem quantities_exact (actual other : String) :
    (∀ answer, quantityExceeds actual other = some answer ↔
      ∃ p q, Reads actual p ∧ Reads other q ∧ (answer = true ↔ q < p)) ∧
    (quantityExceeds actual other = none ↔ Refused actual ∨ Refused other) ∧
    (∀ n : Nat, quantityCeil actual other = some n ↔
      ∃ p unit, Reads actual p ∧ Reads other unit ∧ 0 < unit ∧ Rounds p unit n ∧ n ≤ 2147483647) ∧
    (quantityCeil actual other = none ↔ Refused actual ∨ Refused other ∨ Reads other 0 ∨
      ∃ p unit n, Reads actual p ∧ Reads other unit ∧ 0 < unit ∧ Rounds p unit n ∧ 2147483647 < n) :=
  ⟨fun _ => quantityExceeds_reads,quantityExceeds_refused,fun _ => quantityCeil_reads,quantityCeil_refused⟩

/-- The exa suffix, an exponent and the binary suffix. -/
example : quantityExceeds "1E" "1E17" = some true ∧ quantityExceeds "1E" "1Ei" = some false := by decide +kernel

end Expbuild.Readings
