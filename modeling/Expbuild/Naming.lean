import Mathlib

/-!
The names and label values that Kubernetes takes, by the grammars of its documentation,
and the canonical texts of UUIDs that names are made of.
-/
namespace Expbuild.Naming

/-- Begins and ends with one kind of characters, and may have others in between. -/
def framed (ends inner : Char → Bool) (l : List Char) : Bool :=
  l.head?.any ends && l.getLast?.any ends && l.all (fun c => ends c || inner c)

def alphanumeric (c : Char) : Bool := c.isLower || c.isDigit
def dash (c : Char) : Bool := c = '-'

/-- `[a-z0-9]([-a-z0-9]*[a-z0-9])?` of at most 63 characters. -/
def dns1123Label (s : String) : Bool := s.utf8ByteSize ≤ 63 && framed alphanumeric dash s.toList

/-- Such labels, of any length, between dots, of at most 253 characters together. -/
def dns1123Subdomain (s : String) : Bool :=
  s.utf8ByteSize ≤ 253 && (s.toList.splitOn '.').all (framed alphanumeric dash)

/-- `(([A-Za-z0-9][-A-Za-z0-9_.]*)?[A-Za-z0-9])?` of at most 63 characters. -/
def labelValue (s : String) : Bool :=
  s.utf8ByteSize ≤ 63 &&
    (s.toList.isEmpty || framed (fun c => alphanumeric c || c.isUpper) (fun c => c = '-' || c = '_' || c = '.') s.toList)

/-- Groups of 8, 4, 4, 4 and 12 lower-case hexadecimal digits between dashes. -/
structure Uuid where
  text : String
  length : text.toList.length = 36
  digits : ∀ i (bounded : i < text.toList.length),
    if i ∈ [8,13,18,23] then text.toList[i] = '-' else text.toList[i].isDigit ∨ 'a' ≤ text.toList[i] ∧ text.toList[i] ≤ 'f'

theorem ofList_size {l : List Char} (ascii : ∀ c ∈ l, c.utf8Size = 1) : (String.ofList l).utf8ByteSize = l.length := by
  induction l with
  | nil => rfl
  | cons c rest ih =>
    rw [String.ofList_cons,String.utf8ByteSize_append,String.utf8ByteSize_singleton,ascii c List.mem_cons_self,
      ih (fun d member => ascii d (List.mem_cons_of_mem _ member)),List.length_cons,Nat.add_comm]

theorem alphanumeric_ascii {c : Char} (member : alphanumeric c = true ∨ c = '-') : c.utf8Size = 1 := by
  rw [Char.utf8Size_eq_one_iff]
  rcases member with letter | rfl
  · simp only [alphanumeric,Char.isLower,Char.isDigit,Bool.or_eq_true,Bool.and_eq_true,decide_eq_true_eq] at letter
    rcases letter with ⟨_,most⟩ | ⟨_,most⟩
    · exact UInt32.le_trans most (by decide)
    · exact UInt32.le_trans most (by decide)
  · decide

theorem framed_members {l : List Char} (form : framed alphanumeric dash l = true) {c : Char} (member : c ∈ l) :
    alphanumeric c = true ∨ c = '-' := by
  simp only [framed,Bool.and_eq_true,List.all_eq_true,Bool.or_eq_true,dash,decide_eq_true_eq] at form
  exact form.2 c member

/-- Two such texts with inner characters between them are one. -/
theorem framed_join {ends inner : Char → Bool} {l m n : List Char} (before : framed ends inner l = true)
    (between : n.all inner = true) (after : framed ends inner m = true) : framed ends inner (l ++ n ++ m) = true := by
  simp only [framed,Bool.and_eq_true] at before after ⊢
  obtain ⟨⟨first,_⟩,all⟩ := before
  obtain ⟨⟨_,last⟩,all'⟩ := after
  have left : l ≠ [] := by
    rintro rfl
    cases first
  have right : m ≠ [] := by
    rintro rfl
    cases last
  refine ⟨⟨?_,?_⟩,?_⟩
  · rwa [List.append_assoc,List.head?_append_of_ne_nil _ left]
  · rwa [List.getLast?_append_of_ne_nil _ right]
  · simp only [List.all_append,Bool.and_eq_true]
    refine ⟨⟨all,?_⟩,all'⟩
    rw [List.all_eq_true] at between ⊢
    intro c member
    simp [between c member]

variable {s : String}

theorem framed_size (form : framed alphanumeric dash s.toList = true) : s.utf8ByteSize = s.toList.length := by
  rw [← String.ofList_toList (s := s),ofList_size]
  · simp
  · intro c member
    exact alphanumeric_ascii (framed_members form member)

theorem framed_label (form : framed alphanumeric dash s.toList = true) (short : s.toList.length ≤ 63) : dns1123Label s = true := by
  rw [dns1123Label,framed_size form,form]
  simpa using short

theorem framed_subdomain (form : framed alphanumeric dash s.toList = true) (short : s.toList.length ≤ 253) :
    dns1123Subdomain s = true := by
  have dotless : '.' ∉ s.toList := by
    intro member
    rcases framed_members form member with letter | same
    · exact absurd letter (by decide)
    · exact absurd same (by decide)
  rw [dns1123Subdomain,framed_size form,List.splitOn_eq_singleton dotless]
  simp [form,short]

theorem framed_labelValue (form : framed alphanumeric dash s.toList = true) (short : s.toList.length ≤ 63) : labelValue s = true := by
  have wider : framed (fun c => alphanumeric c || c.isUpper) (fun c => c = '-' || c = '_' || c = '.') s.toList = true := by
    simp only [framed,Bool.and_eq_true,List.all_eq_true,Bool.or_eq_true,Option.any_eq_true,dash,decide_eq_true_eq] at form ⊢
    obtain ⟨⟨⟨c,head,first⟩,d,last,final⟩,all⟩ := form
    exact ⟨⟨⟨c,head,.inl first⟩,d,last,.inl final⟩,fun c member => (all c member).imp .inl (fun same => .inl (.inl same))⟩
  rw [labelValue,framed_size form,wider]
  simpa using short

namespace Uuid

theorem framed_text (u : Uuid) : framed alphanumeric dash u.text.toList = true := by
  have hex : ∀ {c : Char}, (c.isDigit ∨ 'a' ≤ c ∧ c ≤ 'f') → alphanumeric c = true := by
    intro c member
    rcases member with digit | ⟨least,most⟩
    · simp [alphanumeric,digit]
    · have lower : c.isLower = true := by
        simp only [Char.isLower,Bool.and_eq_true,decide_eq_true_eq]
        exact ⟨least,UInt32.le_trans most (by decide)⟩
      simp [alphanumeric,lower]
  have long := u.length
  simp only [framed,Bool.and_eq_true]
  refine ⟨⟨?_,?_⟩,?_⟩
  · have first := u.digits 0 (by omega)
    rw [if_neg (by decide)] at first
    rw [List.head?_eq_getElem?,List.getElem?_eq_getElem (by omega)]
    exact hex first
  · have last := u.digits 35 (by omega)
    rw [if_neg (by decide)] at last
    rw [List.getLast?_eq_getElem?,List.getElem?_eq_getElem (by omega)]
    simp only [long]
    exact hex last
  · rw [List.all_eq_true]
    intro c member
    obtain ⟨i,bounded,rfl⟩ := List.mem_iff_getElem.mp member
    have digit := u.digits i bounded
    split at digit
    · simp [dash,digit]
    · simp [hex digit]

end Uuid

end Expbuild.Naming
