import H264Streaming.Sdp.Parser

/-! Values that are printed with a separator between them, and split_values of the text.

Repeated separators are passed over, so an empty string is only read back where nothing
stands behind it. -/

set_option autoImplicit false

namespace H264Streaming.Sdp

open H264Streaming.Bytes

def Separator (sep : UInt8) : Prop := sep = 32 ∨ sep = 58

def IsInt (n : Int) : Prop := -2147483648 ≤ n ∧ n ≤ 2147483647

def Conversion.print : (conversion : Conversion) → conversion.Stored → List UInt8
  | .s, text => text
  | .l, n => decimal n
  | .i, n => decimal n
  | .t, n => decimal n

def printRest (sep : UInt8) : (fmt : List Conversion) → Values fmt → List UInt8
  | [], () => []
  | conversion :: fmt, (value, values) => sep :: (conversion.print value ++ printRest sep fmt values)

def printValues (sep : UInt8) : (fmt : List Conversion) → Values fmt → List UInt8
  | [], () => []
  | conversion :: fmt, (value, values) => conversion.print value ++ printRest sep fmt values

def Blank (sep : UInt8) (tail : List UInt8) : (fmt : List Conversion) → Values fmt → Prop
  | [], () => skip sep tail = []
  | .s :: fmt, (value, values) => value = [] ∧ Blank sep tail fmt values
  | _ :: _, _ => False

def Conversion.Fits (sep : UInt8) : (conversion : Conversion) → conversion.Stored → Prop
  | .s, text => ∀ octet ∈ (text : List UInt8), octet ≠ sep
  | .l, n => IsLong n
  | .i, n => IsInt n
  | .t, n => IsLong n

/-- Values that are read back from their text with the tail behind it. -/
def Readable (sep : UInt8) (tail : List UInt8) : (fmt : List Conversion) → Values fmt → Prop
  | [], () => True
  | conversion :: fmt, (value, values) =>
      conversion.Fits sep value ∧ (conversion.print value = [] → Blank sep tail fmt values) ∧ Readable sep tail fmt values

section
variable {sep : UInt8} {tail : List UInt8}

instance (n : Int) : Decidable (IsLong n) := inferInstanceAs (Decidable (_ ∧ _))

instance (n : Int) : Decidable (IsInt n) := inferInstanceAs (Decidable (_ ∧ _))

instance Conversion.decidableFits : (conversion : Conversion) → (value : conversion.Stored) →
    Decidable (conversion.Fits sep value)
  | .s, text => inferInstanceAs (Decidable (∀ octet ∈ (text : List UInt8), octet ≠ sep))
  | .l, n => inferInstanceAs (Decidable (IsLong n))
  | .i, n => inferInstanceAs (Decidable (IsInt n))
  | .t, n => inferInstanceAs (Decidable (IsLong n))

instance decidableBlank : (fmt : List Conversion) → (values : Values fmt) → Decidable (Blank sep tail fmt values)
  | [], () => inferInstanceAs (Decidable (skip sep tail = []))
  | .s :: fmt, (value, values) =>
      have := decidableBlank fmt values
      inferInstanceAs (Decidable (value = [] ∧ Blank sep tail fmt values))
  | .l :: _, _ => inferInstanceAs (Decidable False)
  | .i :: _, _ => inferInstanceAs (Decidable False)
  | .t :: _, _ => inferInstanceAs (Decidable False)

instance decidableReadable : (fmt : List Conversion) → (values : Values fmt) → Decidable (Readable sep tail fmt values)
  | [], () => inferInstanceAs (Decidable True)
  | conversion :: fmt, (value, values) =>
      have := decidableReadable fmt values
      inferInstanceAs (Decidable (conversion.Fits sep value ∧
        (conversion.print value = [] → Blank sep tail fmt values) ∧ Readable sep tail fmt values))

theorem Separator.not_digit (separator : Separator sep) : isDigit sep = false := by
  rcases separator with rfl | rfl <;> rfl

def Behind (sep : UInt8) (rest : List UInt8) : Prop := ∀ octet ∈ rest.head?, octet = sep

theorem behind_printRest {fmt : List Conversion} (values : Values fmt) (behind : Behind sep tail) :
    Behind sep (printRest sep fmt values ++ tail) := by
  cases fmt with
  | nil => exact behind
  | cons conversion fmt =>
      intro octet first
      exact (Option.some.inj first).symm

theorem skip_cons (sep : UInt8) (rest : List UInt8) : skip sep (sep :: rest) = skip sep rest :=
  List.dropWhile_cons_of_pos (decide_eq_true rfl)

theorem skip_of_ne {first : UInt8} (other : first ≠ sep) (rest : List UInt8) : skip sep (first :: rest) = first :: rest :=
  List.dropWhile_cons_of_neg (by simpa using other)

theorem skip_skip (sep : UInt8) (p : List UInt8) : skip sep (skip sep p) = skip sep p := by
  cases same : skip sep p with
  | nil => rfl
  | cons first rest => exact skip_of_ne (skip_cons_ne same) rest

theorem splitValues_skip (sep : UInt8) (fmt : List Conversion) (p : List UInt8) :
    splitValues sep fmt (skip sep p) = splitValues sep fmt p := by
  unfold splitValues
  rw [skip_skip]

theorem splitValues_cons (sep : UInt8) (conversion : Conversion) (fmt : List Conversion) (p : List UInt8) :
    splitValues sep (conversion :: fmt) p =
      (((convert sep conversion (skip sep p)).1, (splitValues sep fmt (convert sep conversion (skip sep p)).2).1),
        (splitValues sep fmt (convert sep conversion (skip sep p)).2).2) := rfl

/-! ### Numbers -/

theorem decimal_head (n : Int) : ∃ first rest, decimal n = first :: rest ∧ (first = 45 ∨ isDigit first) := by
  cases n with
  | ofNat n =>
      obtain ⟨first, rest, same⟩ := List.exists_cons_of_ne_nil (decimal_ne_nil n)
      exact ⟨first, rest, same, Or.inr (isDigit_of_mem_decimal (n := n) (same ▸ List.mem_cons_self))⟩
  | negSucc n => exact ⟨45, _, by rw [Int.negSucc_eq, decimal_of_neg], Or.inl rfl⟩

theorem decimal_head_ne (separator : Separator sep) {n : Int} {first : UInt8} {rest : List UInt8}
    (same : decimal n = first :: rest) : first ≠ sep := by
  obtain ⟨octet, more, own, kind⟩ := decimal_head n
  obtain ⟨rfl, -⟩ := List.cons.inj (same.symm.trans own)
  rintro rfl
  rcases separator with rfl | rfl <;> revert kind <;> decide

theorem skip_decimal (separator : Separator sep) (n : Int) (rest : List UInt8) :
    skip sep (decimal n ++ rest) = decimal n ++ rest := by
  obtain ⟨first, more, same, -⟩ := decimal_head n
  rw [same, List.cons_append, skip_of_ne (decimal_head_ne separator same)]

theorem number_decimal {n : Int} (long : IsLong n) {rest : List UInt8}
    (stop : ∀ octet ∈ rest.head?, isDigit octet = false) : number (decimal n ++ rest) = (n, rest) := by
  rw [number, strtol_decimal long stop]
  rfl

theorem IsInt.isLong {n : Int} (int : IsInt n) : IsLong n := by
  unfold IsInt at int
  unfold IsLong
  omega

theorem toInt32_of_isInt {n : Int} (int : IsInt n) : toInt32 n = n := by
  unfold IsInt at int
  unfold toInt32
  omega

theorem isLong_zero : IsLong 0 := ⟨by decide, by decide⟩

theorem isInt_zero : IsInt 0 := ⟨by decide, by decide⟩

theorem isInt_toInt32 (n : Int) : IsInt (toInt32 n) := by
  unfold IsInt toInt32
  omega

theorem isLong_toInt64 (n : Int) : IsLong (toInt64 n) := by
  unfold IsLong toInt64
  omega

theorem timeValue_decimal (separator : Separator sep) {n : Int} (long : IsLong n) {rest : List UInt8}
    (behind : Behind sep rest) : timeValue (decimal n ++ rest) = (n, rest) := by
  have stop : ∀ octet ∈ rest.head?, isDigit octet = false := fun octet first =>
    behind octet first ▸ separator.not_digit
  unfold timeValue
  rw [strtol_decimal long stop]
  cases rest with
  | nil => rfl
  | cons octet rest =>
      have same := behind octet rfl
      subst same
      rcases separator with rfl | rfl <;> rfl

theorem decimal_filled (n : Int) : decimal n ≠ [] := by
  obtain ⟨first, rest, same, -⟩ := decimal_head n
  rw [same]
  exact List.cons_ne_nil first rest

/-! ### Values read back -/

theorem convert_print (separator : Separator sep) (conversion : Conversion) {value : conversion.Stored}
    (fits : conversion.Fits sep value) (filled : conversion.print value ≠ []) {rest : List UInt8} (behind : Behind sep rest) :
    convert sep conversion (skip sep (conversion.print value ++ rest)) = (value, rest) := by
  have stop : ∀ octet ∈ rest.head?, isDigit octet = false := fun octet first =>
    behind octet first ▸ separator.not_digit
  cases conversion with
  | s =>
      obtain ⟨first, more, rfl⟩ := List.exists_cons_of_ne_nil filled
      have other : first ≠ sep := fits first List.mem_cons_self
      have all : ∀ octet ∈ first :: more, decide (octet ≠ sep) = true := fun octet member =>
        decide_eq_true (fits octet member)
      have ended : rest.takeWhile (· ≠ sep) = [] ∧ rest.dropWhile (· ≠ sep) = rest := by
        cases rest with
        | nil => exact ⟨rfl, rfl⟩
        | cons octet rest =>
            have same := behind octet rfl
            simp [same]
      have start : skip sep (first :: more ++ rest) = first :: more ++ rest := skip_of_ne other _
      simp only [Conversion.print, convert, start]
      rw [List.takeWhile_append_of_pos all, List.dropWhile_append_of_pos all, ended.1, ended.2, List.append_nil]
  | l =>
      have start := skip_decimal separator value rest
      simp only [Conversion.print, convert, start]
      exact number_decimal fits stop
  | i =>
      have start := skip_decimal separator value rest
      have read := number_decimal (IsInt.isLong fits) stop
      simp only [Conversion.print, convert, start, read, toInt32_of_isInt fits]
  | t =>
      have start := skip_decimal separator value rest
      simp only [Conversion.print, convert, start]
      exact timeValue_decimal separator fits behind

theorem print_eq_nil {conversion : Conversion} {value : conversion.Stored} (empty : conversion.print value = []) :
    conversion = .s := by
  cases conversion with
  | s => rfl
  | l => exact absurd empty (decimal_filled value)
  | i => exact absurd empty (decimal_filled value)
  | t => exact absurd empty (decimal_filled value)

theorem skip_blank {fmt : List Conversion} {values : Values fmt} (blank : Blank sep tail fmt values) :
    skip sep (printRest sep fmt values ++ tail) = [] := by
  induction fmt with
  | nil => exact blank
  | cons conversion fmt ih =>
      obtain ⟨value, values⟩ := values
      cases conversion with
      | s =>
          obtain ⟨rfl, blank⟩ := blank
          rw [printRest, List.cons_append, skip_cons]
          exact ih blank
      | l => exact blank.elim
      | i => exact blank.elim
      | t => exact blank.elim

theorem splitValues_blank {fmt : List Conversion} {values : Values fmt} (blank : Blank sep tail fmt values)
    {p : List UInt8} (empty : skip sep p = []) : splitValues sep fmt p = (values, []) := by
  induction fmt generalizing p with
  | nil => exact congrArg (Prod.mk ()) empty
  | cons conversion fmt ih =>
      obtain ⟨value, values⟩ := values
      cases conversion with
      | s =>
          obtain ⟨rfl, blank⟩ := blank
          have rest := ih blank (p := []) rfl
          rw [splitValues_cons, empty]
          simp only [convert, List.dropWhile_nil, List.takeWhile_nil, rest]
      | l => exact blank.elim
      | i => exact blank.elim
      | t => exact blank.elim

/-- The text of readable values gives these values and what stands behind them. -/
theorem splitValues_printRest (separator : Separator sep) {fmt : List Conversion} {values : Values fmt}
    (behind : Behind sep tail) (readable : Readable sep tail fmt values) :
    splitValues sep fmt (printRest sep fmt values ++ tail) = (values, skip sep tail) := by
  induction fmt with
  | nil => rfl
  | cons conversion fmt ih =>
      obtain ⟨value, values⟩ := values
      obtain ⟨fits, last, readable⟩ := readable
      have rest := ih readable
      rw [printRest, List.cons_append, splitValues_cons, skip_cons, List.append_assoc]
      by_cases filled : conversion.print value = []
      · have blank := last filled
        have none := skip_blank blank
        have ended : skip sep tail = [] := by
          rw [splitValues_blank blank none] at rest
          exact (Prod.mk.inj rest).2.symm
        have split := splitValues_blank blank (p := []) rfl
        obtain rfl := print_eq_nil filled
        have empty : value = [] := filled
        subst empty
        simp only [Conversion.print, List.nil_append, none, convert, List.takeWhile_nil, List.dropWhile_nil, split, ended]
      · rw [convert_print separator conversion fits filled (behind_printRest values behind), rest]

theorem splitValues_sep (fmt : List Conversion) (p : List UInt8) : splitValues sep fmt (sep :: p) = splitValues sep fmt p := by
  unfold splitValues
  rw [skip_cons]

theorem splitValues_printValues (separator : Separator sep) {fmt : List Conversion} {values : Values fmt}
    (behind : Behind sep tail) (readable : Readable sep tail fmt values) :
    splitValues sep fmt (printValues sep fmt values ++ tail) = (values, skip sep tail) := by
  rw [← splitValues_printRest separator behind readable]
  cases fmt with
  | nil => rfl
  | cons conversion fmt => exact (splitValues_sep (conversion :: fmt) _).symm

/-! ### Lists of values -/

theorem Conversion.print_filled {conversion : Conversion} (number : conversion ≠ .s) (value : conversion.Stored) :
    conversion.print value ≠ [] :=
  fun empty => number (print_eq_nil empty)

theorem behind_flatMap (sep : UInt8) (conversion : Conversion) (fmt : List Conversion)
    (all : List (Values (conversion :: fmt))) : Behind sep (all.flatMap (printRest sep (conversion :: fmt))) := by
  intro octet first
  cases all with
  | nil => cases first
  | cons values all => exact (Option.some.inj first).symm

theorem splitEach_printed (separator : Separator sep) {α : Type} {conversion : Conversion} {fmt : List Conversion}
    (number : conversion ≠ .s) (element : Values (conversion :: fmt) → α) {all : List (Values (conversion :: fmt))}
    (readable : ∀ values ∈ all, ∀ tail, Readable sep tail (conversion :: fmt) values) :
    splitEach sep conversion fmt element (skip sep (all.flatMap (printRest sep (conversion :: fmt)))) = all.map element := by
  induction all with
  | nil =>
      have none : skip sep (List.flatMap (printRest sep (conversion :: fmt)) []) = [] := rfl
      rw [splitEach, dif_pos none]
      rfl
  | cons values all ih =>
      obtain ⟨here, later⟩ := List.forall_mem_cons.mp readable
      have split := splitValues_printRest separator (behind_flatMap sep conversion fmt all) (here _)
      have filled : skip sep ((values :: all).flatMap (printRest sep (conversion :: fmt))) ≠ [] := by
        obtain ⟨first, more, same⟩ := List.exists_cons_of_ne_nil (conversion.print_filled number values.1)
        have other : first ≠ sep := by
          cases conversion with
          | s => exact absurd rfl number
          | l => exact decimal_head_ne separator same
          | i => exact decimal_head_ne separator same
          | t => exact decimal_head_ne separator same
        rw [List.flatMap_cons, printRest, List.cons_append, skip_cons, same, List.cons_append, List.cons_append,
          skip_of_ne other]
        exact List.cons_ne_nil _ _
      rw [splitEach, dif_neg filled]
      dsimp only
      rw [splitValues_skip, List.flatMap_cons, split, ih later, List.map_cons]

/-! ### Values that were read -/

theorem isLong_number (p : List UInt8) : IsLong (number p).1 := by
  unfold number
  cases read : strtol p with
  | none => exact isLong_zero
  | some found => exact (strtol_eq_some read).2.1

theorem isLong_timeValue (p : List UInt8) : IsLong (timeValue p).1 := by
  unfold timeValue
  split
  · exact isLong_zero
  · exact isLong_toInt64 _
  · exact isLong_toInt64 _
  · exact isLong_toInt64 _
  · next read => exact (strtol_eq_some read).2.1

theorem convert_fits (sep : UInt8) (conversion : Conversion) (p : List UInt8) :
    conversion.Fits sep (convert sep conversion p).1 := by
  cases conversion with
  | s =>
      intro octet member
      simpa using List.mem_takeWhile_imp member
  | l => exact isLong_number p
  | i => exact isInt_toInt32 _
  | t => exact isLong_timeValue p

theorem blank_strings {fmt : List Conversion} (strings : ∀ conversion ∈ fmt, conversion = .s) :
    Blank sep [] fmt (splitValues sep fmt []).1 := by
  induction fmt with
  | nil => rfl
  | cons conversion fmt ih =>
      obtain ⟨rfl, later⟩ := List.forall_mem_cons.mp strings
      exact ⟨rfl, ih later⟩

theorem skip_eq_nil {p : List UInt8} (empty : (skip sep p).takeWhile (· ≠ sep) = []) : skip sep p = [] := by
  cases same : skip sep p with
  | nil => rfl
  | cons first more =>
      rw [same, List.takeWhile_cons_of_pos (by simpa using skip_cons_ne same)] at empty
      cases empty

theorem readable_cons {conversion : Conversion} {fmt : List Conversion} {p : List UInt8}
    (last : conversion.print (splitValues sep (conversion :: fmt) p).1.1 ≠ [] ∨ tail = [] ∧ ∀ other ∈ fmt, other = .s)
    (rest : ∀ p, Readable sep tail fmt (splitValues sep fmt p).1) :
    Readable sep tail (conversion :: fmt) (splitValues sep (conversion :: fmt) p).1 := by
  refine ⟨convert_fits sep conversion _, fun empty => ?_, rest _⟩
  obtain ⟨rfl, strings⟩ := last.resolve_left (absurd empty)
  obtain rfl := print_eq_nil empty
  have ended : skip sep p = [] := skip_eq_nil empty
  have next : (splitValues sep (.s :: fmt) p).1.2 = (splitValues sep fmt []).1 := by
    rw [splitValues_cons, ended]
    rfl
  change Blank sep [] fmt (splitValues sep (.s :: fmt) p).1.2
  rw [next]
  exact blank_strings strings

theorem readable_numbers {fmt : List Conversion} (numbers : ∀ conversion ∈ fmt, conversion ≠ .s) (p : List UInt8) :
    Readable sep tail fmt (splitValues sep fmt p).1 := by
  induction fmt generalizing p with
  | nil => trivial
  | cons conversion fmt ih =>
      obtain ⟨number, later⟩ := List.forall_mem_cons.mp numbers
      exact readable_cons (Or.inl (conversion.print_filled number _)) (ih later)

theorem readable_strings {fmt : List Conversion} (strings : ∀ conversion ∈ fmt, conversion = .s) (p : List UInt8) :
    Readable sep [] fmt (splitValues sep fmt p).1 := by
  induction fmt generalizing p with
  | nil => trivial
  | cons conversion fmt ih =>
      obtain ⟨-, later⟩ := List.forall_mem_cons.mp strings
      exact readable_cons (Or.inr ⟨rfl, later⟩) (ih later)

theorem mem_splitEach {α : Type} {conversion : Conversion} {fmt : List Conversion} {element : Values (conversion :: fmt) → α}
    {value : List UInt8} {x : α} (member : x ∈ splitEach sep conversion fmt element value) :
    ∃ p, x = element (splitValues sep (conversion :: fmt) p).1 := by
  induction size : value.length using Nat.strong_induction_on generalizing value with
  | _ n ih =>
      rw [splitEach] at member
      split at member
      · cases member
      · next filled =>
          rcases List.mem_cons.mp member with rfl | later
          · exact ⟨value, rfl⟩
          · exact ih _ (size ▸ splitValues_shorter sep conversion fmt filled) later rfl

end

end H264Streaming.Sdp
