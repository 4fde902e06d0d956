import Mathlib.Data.List.Forall2
import Mathlib.Data.Nat.Digits.Defs
import ForgeChores.Json.Record

/-!
# ForgeChores.Proofs.Json.Record

What the records of a text hold, said of the text as it is written and not by reading it.

`Spells` lists the fields of a record with the values that stand for them. `Fields.Takes` says of a
reader which fields it takes and what it makes of them; it is put together as readers are
(`takes_required`, `takes_optional`, `Takes.bind`), and a record is read exactly as its reader takes
the fields that are spelled (`record_eq_some_iff`).
-/

namespace ForgeChores
namespace Json

/-! ## Values -/

namespace Written

/-- The record has these fields, each with what stands for it, or nothing. An object has them under
their names, once if at all, in any order and among others; an array has just them and all of them,
in their order. -/
def Spells (w : Written) (fields : List (String × Option Written)) : Prop :=
  match w with
  | .object found => (∀ m ∈ found, m.1.isSome = true) ∧
      ∀ f ∈ fields, (found.filter (·.1 == some f.1)).map (·.2) = f.2.toList
  | .array items => items.map some = fields.map (·.2)
  | _ => False

/-- The value is the text `s`. -/
def IsText (s : String) (w : Written) : Prop := w = .string (some s)

/-- The value is `n`, in digits and of 64 bits. -/
def IsNatural (n : Nat) : Written → Prop
  | .number ⟨isNegative, whole, fraction, exponent⟩ =>
    isNegative = false ∧ fraction = none ∧ exponent = none ∧
      Nat.ofDigits 10 (whole.reverse.map fun c => c.toNat - '0'.toNat) = n ∧ n < 2 ^ 64
  | _ => False

/-- A text that may be missing. Null is as good as nothing. -/
inductive IsTextOrMissing : Option String → Option Written → Prop where
  | missing : IsTextOrMissing none none
  | null : IsTextOrMissing none (some .null)
  | text {s : String} {w : Written} : w.IsText s → IsTextOrMissing (some s) (some w)

/-- A list of values, each of which spells its item. -/
def IsList {α : Type} (P : α → Written → Prop) (items : List α) : Written → Prop
  | .array written => List.Forall₂ P items written
  | _ => False

end Written

namespace Decoder

variable {w : Written}

theorem text_eq_some_iff {s : String} : text w = some s ↔ w.IsText s := by
  unfold Written.IsText
  cases w <;> simp [text]

theorem digitsValue_eq (digits : List Char) : Literal.digitsValue digits =
    Nat.ofDigits 10 (digits.reverse.map fun c => c.toNat - '0'.toNat) := by
  rw [Literal.digitsValue, Nat.ofDigits_eq_foldr, List.foldr_map, List.foldr_reverse]
  congr 1
  funext n c
  simp only [Nat.cast_id]
  omega

theorem natural_eq_some_iff {n : Nat} : natural w = some n ↔ w.IsNatural n := by
  cases w with
  | number l =>
    obtain ⟨isNegative, whole, fraction, exponent⟩ := l
    simp only [natural, Literal.natural?, Literal.isWhole, Written.IsNatural, digitsValue_eq,
      Text.bound64]
    cases isNegative <;> cases fraction <;> cases exponent <;> simp
    constructor
    · rintro ⟨hbound, rfl⟩
      exact ⟨rfl, hbound⟩
    · rintro ⟨rfl, hbound⟩
      exact ⟨hbound, rfl⟩
  | _ => simp [natural, Written.IsNatural]

/-- What a decoder of a field says of a field that may be missing. -/
def missing? {α : Type} (d : Decoder α) : Option Written → Option (Option α)
  | none => some none
  | some w => optional d w

theorem missing?_text_eq_some_iff {v : Option Written} {s : Option String} :
    missing? text v = some s ↔ Written.IsTextOrMissing s v := by
  constructor
  · intro h
    rcases v with _ | w
    · cases h
      exact .missing
    · cases w with
      | null =>
        cases h
        exact .null
      | string t =>
        cases t with
        | none => cases h
        | some t =>
          cases h
          exact .text rfl
      | bool _ => cases h
      | number _ => cases h
      | array _ => cases h
      | object _ => cases h
  · intro h
    cases h with
    | missing => rfl
    | null => rfl
    | text hs =>
      cases hs
      rfl

theorem mapM_eq_some_iff {α : Type} {d : Decoder α} {P : α → Written → Prop}
    (hd : ∀ w a, d w = some a ↔ P a w) (written : List Written) (items : List α) :
    written.mapM d = some items ↔ List.Forall₂ P items written := by
  induction written generalizing items with
  | nil =>
    rw [List.mapM_nil, List.forall₂_nil_right_iff]
    exact Option.some_inj.trans eq_comm
  | cons w written ih =>
    rw [List.mapM_cons, List.forall₂_cons_right_iff]
    simp only [Option.bind_eq_bind, Option.bind_eq_some_iff, hd, ih]
    constructor
    · rintro ⟨a, ha, rest, hrest, ⟨⟩⟩
      exact ⟨a, rest, ha, hrest, rfl⟩
    · rintro ⟨a, rest, ha, hrest, rfl⟩
      exact ⟨a, ha, rest, hrest, rfl⟩

theorem list_eq_some_iff {α : Type} {d : Decoder α} {P : α → Written → Prop}
    (hd : ∀ w a, d w = some a ↔ P a w) {items : List α} :
    list d w = some items ↔ w.IsList P items := by
  cases w with
  | array written => exact mapM_eq_some_iff hd written items
  | _ => simp [list, Written.IsList]

end Decoder

/-! ## Records -/

namespace Fields

variable {α β : Type}

/-- The reader takes fields that `R` relates to the result: from an object by their names, and from
an array the first ones, which it uses up. -/
structure Takes (m : Fields α) (R : List (String × Option Written) → α → Prop) : Prop where
  named : ∀ found a rest, m (.named found) = some (a, rest) ↔ rest = .named found ∧
    ∃ fields, (∀ f ∈ fields, (found.filter (·.1 == some f.1)).map (·.2) = f.2.toList) ∧ R fields a
  positional : ∀ items a rest, m (.positional items) = some (a, rest) ↔
    ∃ fields later, items.map some = fields.map (·.2) ++ later.map some ∧
      rest = .positional later ∧ R fields a

theorem takes_pure (a : α) : Takes (pure a) fun fields a' => fields = [] ∧ a' = a where
  named members a' rest := by
    constructor
    · rintro ⟨⟩
      exact ⟨rfl, [], nofun, rfl, rfl⟩
    · rintro ⟨rfl, _, -, rfl, rfl⟩
      rfl
  positional items a' rest := by
    constructor
    · rintro ⟨⟩
      exact ⟨[], items, rfl, rfl, rfl, rfl⟩
    · rintro ⟨_, later, hitems, rfl, rfl, rfl⟩
      rw [List.map_nil, List.nil_append] at hitems
      rw [List.map_injective_iff.mpr (Option.some_injective _) hitems]
      rfl

theorem take_named (found : List (Option String × Written)) (name : String)
    (v : Option Written) (rest : Source) :
    take name (.named found) = some (v, rest) ↔ rest = .named found ∧
      (found.filter (·.1 == some name)).map (·.2) = v.toList := by
  unfold take
  simp only
  generalize found.filter (fun f => f.1 == some name) = hits
  rcases hits with _ | ⟨⟨n, w⟩, _ | ⟨hit, more⟩⟩
  · cases v <;> simp [eq_comm]
  · cases v <;> simp [eq_comm, and_comm]
  · cases v <;> simp

theorem take_positional (items : List Written) (name : String) (v : Option Written)
    (rest : Source) : take name (.positional items) = some (v, rest) ↔
      ∃ later, items = v.toList ++ later ∧ rest = .positional later ∧ (v = none → items = []) := by
  cases items with
  | nil => cases v <;> simp [take, eq_comm]
  | cons w more => cases v <;> simp [take, eq_comm, and_comm]

theorem required_eq_some_iff {name : String} {d : Decoder α} {source rest : Source} {a : α} :
    required name d source = some (a, rest) ↔
      ∃ w, take name source = some (some w, rest) ∧ d w = some a := by
  show (take name source).bind _ = _ ↔ _
  rw [Option.bind_eq_some_iff]
  constructor
  · rintro ⟨⟨_ | w, rest'⟩, htake, h⟩
    · cases h
    · obtain ⟨a', ha, h⟩ := Option.bind_eq_some_iff.mp h
      cases h
      exact ⟨w, htake, ha⟩
  · rintro ⟨w, htake, ha⟩
    exact ⟨_, htake, Option.bind_eq_some_iff.mpr ⟨a, ha, rfl⟩⟩

theorem takes_required (name : String) (d : Decoder α) :
    Takes (required name d) fun fields a => ∃ w, fields = [(name, some w)] ∧ d w = some a where
  named found a rest := by
    simp only [required_eq_some_iff, take_named]
    constructor
    · rintro ⟨w, ⟨hrest, hw⟩, ha⟩
      exact ⟨hrest, _, by simpa using hw, w, rfl, ha⟩
    · rintro ⟨hrest, _, hfields, w, rfl, ha⟩
      exact ⟨w, ⟨hrest, hfields _ List.mem_cons_self⟩, ha⟩
  positional items a rest := by
    simp only [required_eq_some_iff, take_positional]
    constructor
    · rintro ⟨w, ⟨later, rfl, hrest, -⟩, ha⟩
      exact ⟨_, later, by simp, hrest, w, rfl, ha⟩
    · rintro ⟨_, later, hitems, hrest, w, rfl, ha⟩
      refine ⟨w, ⟨later, ?_, hrest, nofun⟩, ha⟩
      exact List.map_injective_iff.mpr (Option.some_injective _) (by simpa using hitems)

/-- A field that is missing from an array is not taken for one that is left out. -/
theorem optional_eq_some_iff {name : String} {d : Decoder α} {source rest : Source}
    {a : Option α} : optional name d source = some (a, rest) ↔
      ∃ v, take name source = some (v, rest) ∧ Decoder.missing? d v = some a ∧
        (v = none → ∃ found, source = .named found) := by
  unfold optional
  rw [Option.bind_eq_bind, Option.bind_eq_some_iff]
  constructor
  · rintro ⟨⟨_ | w, rest'⟩, htake, h⟩
    · cases source with
      | named found =>
        cases h
        exact ⟨none, htake, rfl, fun _ => ⟨found, rfl⟩⟩
      | positional items => cases h
    · obtain ⟨a', ha, h⟩ := Option.bind_eq_some_iff.mp h
      cases h
      exact ⟨some w, htake, ha, nofun⟩
  · rintro ⟨_ | w, htake, ha, hsource⟩
    · obtain ⟨found, rfl⟩ := hsource rfl
      cases ha
      exact ⟨_, htake, rfl⟩
    · exact ⟨_, htake, Option.bind_eq_some_iff.mpr ⟨a, ha, rfl⟩⟩

theorem takes_optional (name : String) (d : Decoder α) :
    Takes (optional name d) fun fields a => ∃ v, fields = [(name, v)] ∧
      Decoder.missing? d v = some a where
  named found a rest := by
    simp only [optional_eq_some_iff, take_named]
    constructor
    · rintro ⟨v, ⟨hrest, hv⟩, ha, -⟩
      exact ⟨hrest, _, by simpa using hv, v, rfl, ha⟩
    · rintro ⟨hrest, _, hfields, v, rfl, ha⟩
      exact ⟨v, ⟨hrest, hfields _ List.mem_cons_self⟩, ha, fun _ => ⟨found, rfl⟩⟩
  positional items a rest := by
    simp only [optional_eq_some_iff, take_positional]
    constructor
    · rintro ⟨_ | w, ⟨later, rfl, hrest, -⟩, ha, hsource⟩
      · obtain ⟨_, hsource⟩ := hsource rfl
        cases hsource
      · exact ⟨_, later, by simp, hrest, some w, rfl, ha⟩
    · rintro ⟨_, later, hitems, hrest, v, rfl, ha⟩
      -- an array has no empty places
      cases items with
      | nil => simp at hitems
      | cons w items =>
        obtain ⟨rfl, hlater⟩ := List.cons.inj hitems
        obtain rfl : items = later :=
          List.map_injective_iff.mpr (Option.some_injective _) hlater
        exact ⟨some w, ⟨items, rfl, hrest, nofun⟩, ha, nofun⟩

theorem Takes.bind {m : Fields α} {k : α → Fields β} {R : List (String × Option Written) → α → Prop}
    {S : α → List (String × Option Written) → β → Prop} (hm : m.Takes R)
    (hk : ∀ a, (k a).Takes (S a)) :
    Takes (m >>= k) fun fields b => ∃ first later a, fields = first ++ later ∧ R first a ∧
      S a later b where
  named found b rest := by
    show (m (.named found)).bind _ = _ ↔ _
    rw [Option.bind_eq_some_iff]
    constructor
    · rintro ⟨⟨a, rest'⟩, ha, hb⟩
      obtain ⟨rfl, first, hfirst, hR⟩ := (hm.named found a rest').mp ha
      obtain ⟨hrest, later, hlater, hS⟩ := ((hk a).named found b rest).mp hb
      exact ⟨hrest, _, fun f hf => (List.mem_append.mp hf).elim (hfirst f) (hlater f), first, later,
        a, rfl, hR, hS⟩
    · rintro ⟨hrest, _, hfields, first, later, a, rfl, hR, hS⟩
      refine ⟨(a, .named found), (hm.named _ _ _).mpr ⟨rfl, first, fun f hf => ?_, hR⟩,
        ((hk a).named _ _ _).mpr ⟨hrest, later, fun f hf => ?_, hS⟩⟩
      · exact hfields f (List.mem_append_left _ hf)
      · exact hfields f (List.mem_append_right _ hf)
  positional items b rest := by
    show (m (.positional items)).bind _ = _ ↔ _
    rw [Option.bind_eq_some_iff]
    constructor
    · rintro ⟨⟨a, rest'⟩, ha, hb⟩
      obtain ⟨first, middle, hfirst, rfl, hR⟩ := (hm.positional items a rest').mp ha
      obtain ⟨second, later, hsecond, hrest, hS⟩ := ((hk a).positional middle b rest).mp hb
      refine ⟨_, later, ?_, hrest, first, second, a, rfl, hR, hS⟩
      rw [hfirst, hsecond, List.map_append, List.append_assoc]
    · rintro ⟨_, later, hitems, hrest, first, second, a, rfl, hR, hS⟩
      rw [List.map_append, List.append_assoc] at hitems
      obtain ⟨before, after, rfl, hbefore, hafter⟩ := List.map_eq_append_iff.mp hitems
      refine ⟨(a, .positional after), (hm.positional _ _ _).mpr ⟨first, after, ?_, rfl, hR⟩,
        ((hk a).positional _ _ _).mpr ⟨second, later, hafter, hrest, hS⟩⟩
      rw [List.map_append, hbefore]

end Fields

theorem record_eq_some_iff {α : Type} {m : Fields α}
    {R : List (String × Option Written) → α → Prop} (hm : m.Takes R) {w : Written} {a : α} :
    record m w = some a ↔ ∃ fields, w.Spells fields ∧ R fields a := by
  cases w with
  | object found =>
    have hread : (m (.named found)).map (·.1) = some a ↔
        ∃ rest, m (.named found) = some (a, rest) := by
      cases m (.named found) <;> simp [Prod.ext_iff]
    by_cases hnames : found.all (fun f => f.1.isSome) = true
    · simp only [record, if_pos hnames, hread, hm.named, Written.Spells]
      have hnames' := List.all_eq_true.mp hnames
      constructor
      · rintro ⟨_, -, fields, hfields, hR⟩
        exact ⟨fields, ⟨hnames', hfields⟩, hR⟩
      · rintro ⟨fields, ⟨-, hfields⟩, hR⟩
        exact ⟨_, rfl, fields, hfields, hR⟩
    · simp only [record, if_neg hnames, Written.Spells]
      refine iff_of_false (Option.some_ne_none a).symm ?_
      rintro ⟨_, ⟨hall, -⟩, -⟩
      exact hnames (List.all_eq_true.mpr hall)
  | array items =>
    have hread : record m (.array items) = some a ↔
        m (.positional items) = some (a, .positional []) := by
      simp only [record]
      rcases m (.positional items) with _ | ⟨a', _ | _ | _⟩ <;> simp
    rw [hread, hm.positional]
    constructor
    · rintro ⟨fields, _, hitems, ⟨⟩, hR⟩
      rw [List.map_nil, List.append_nil] at hitems
      exact ⟨fields, hitems, hR⟩
    · rintro ⟨fields, hitems, hR⟩
      replace hitems : items.map some = fields.map (·.2) := hitems
      exact ⟨fields, [], by rw [hitems, List.map_nil, List.append_nil], rfl, hR⟩
  | _ => simp [record, Written.Spells]

end Json
end ForgeChores
