import Mathlib.Data.Char
import Mathlib.Data.List.Lex
import AutoQuantTrader.Lib.Result
import AutoQuantTrader.Lib.Dict
import AutoQuantTrader.Lib.Keyed
import AutoQuantTrader.Lib.Machine
import AutoQuantTrader.Lib.Sorting

/-!
# The language the code is written in

The exceptions the modelled code can raise, told apart by the classes its handlers tell apart, and
the text and time values every record is built from.

Instants are microseconds since the epoch, which is what an aware UTC `datetime` holds; a `Day` is
a `date` by its ordinal.
-/

namespace AutoQuantTrader

/-- A `str`: a sequence of code points, ordered as Python orders them. -/
structure Str where
  chars : List Char
deriving DecidableEq, Repr

namespace Str

@[coe] def of (s : String) : Str := ⟨s.toList⟩

instance : Coe String Str := ⟨of⟩

instance : Append Str := ⟨fun a b => ⟨a.chars ++ b.chars⟩⟩

instance : LinearOrder Str :=
  LinearOrder.lift' chars fun a b h => by cases a; cases b; cases h; rfl

-- what `sorted` needs of the order, by name
instance transLe : IsTrans Str (· ≤ ·) := inferInstance

instance antisymmLe : Std.Antisymm (fun a b : Str => a ≤ b) := inferInstance

instance totalLe : Std.Total (fun a b : Str => a ≤ b) := inferInstance

/-- A search through a text looks at its characters only. -/
instance {p : Char → Prop} [DecidablePred p] (l : List Char) : Decidable (∃ c ∈ l, p c) :=
  List.decidableBEx p l

/-- `separator.join(parts)`. -/
def join (separator : Str) (parts : List Str) : Str :=
  ⟨List.intercalate separator.chars (parts.map chars)⟩

/-- A number in decimal. -/
def ofInt (n : Int) : Str :=
  (if n < 0 then ⟨['-']⟩ else ⟨[]⟩) ++ ⟨Nat.toDigits 10 n.natAbs⟩

/-- One character of `repr(s)`. -/
def reprChar (quote c : Char) : List Char :=
  if c = quote ∨ c = '\\' then ['\\', c]
  else if c = '\n' then ['\\', 'n']
  else if c = '\r' then ['\\', 'r']
  else if c = '\t' then ['\\', 't']
  else if c.toNat < 32 ∨ c.toNat = 127 then
    ['\\', 'x'] ++ (if c.toNat < 16 then ['0'] else []) ++ Nat.toDigits 16 c.toNat
  else [c]

/-- `repr(s)`, as far as ASCII goes: in double quotes if that saves escaping single ones. -/
def quoted (s : Str) : Str :=
  let single := Char.ofNat 39
  let double := Char.ofNat 34
  let quote := if single ∈ s.chars ∧ double ∉ s.chars then double else single
  ⟨quote :: s.chars.flatMap (reprChar quote) ++ [quote]⟩

end Str

/-- An exception, by the class a handler can catch it under.  Every domain error of the code is a
`ValueError`; its text is kept, since rejected commands report it. -/
inductive PyError where
  | valueError (message : Str)
  | arithmeticError
  | keyError
  | indexError
  | assertionError
  | stopIteration
deriving DecidableEq, Repr

/-- A computation that may raise. -/
abbrev Py := Except PyError

/-- An aware UTC `datetime`, in microseconds since the epoch. -/
abbrev Instant := Int

/-- A `date`, by its ordinal. -/
abbrev Day := Int

/-- `if bad: raise ValueError(message)`. -/
def raiseIf (bad : Prop) [Decidable bad] (message : Str) : Py Unit :=
  Result.throwIf bad (.valueError message)

@[simp] theorem raiseIf_eq_ok {bad : Prop} [Decidable bad] : raiseIf bad message = .ok u ↔ ¬ bad :=
  Result.throwIf_eq_ok

/-- The same in a method, which leaves its object as it is. -/
def refuse {σ : Type} (bad : Prop) [Decidable bad] (message : Str) : Machine σ PyError Unit :=
  Machine.raiseWhen bad (.valueError message)

section refuse

variable {σ : Type} {bad : Prop} [Decidable bad] {s : σ}

theorem refuse_of_not (h : ¬ bad) : refuse bad message s = (.ok (), s) := by
  rw [refuse, Machine.raiseWhen, if_neg h]
  rfl

theorem wp_refuse {Q : Unit → σ → Prop} {E : PyError → σ → Prop} (hok : ¬ bad → Q () s)
    (hbad : E (.valueError message) s) : Machine.wp (refuse bad message) Q E s :=
  Machine.wp_raiseWhen hok fun _ => hbad

end refuse

/-! ## Records that check themselves

A frozen dataclass whose `__post_init__` raises on a malformed value: its fields are one structure,
the check is a computation, and the record is its fields together with the fact that they pass. -/

/-- A value that passes `check`. -/
structure Checked {α : Type} (check : α → Py Unit) where
  val : α
  passes : check val = .ok ⟨⟩

variable {α : Type} {check : α → Py Unit}

theorem Checked.ext {a b : Checked check} (h : a.val = b.val) : a = b := by
  cases a; cases b; cases h; rfl

theorem Checked.ext_iff {b : Checked check} : a = b ↔ a.val = b.val :=
  ⟨congrArg val, Checked.ext⟩

instance {α : Type} [DecidableEq α] {check : α → Py Unit} : DecidableEq (Checked check) :=
  fun _ _ => decidable_of_iff _ Checked.ext_iff.symm

/-- Run the check of a record under construction. -/
def construct {α : Type} {check : α → Py Unit} (a : α) : Py (Checked check) :=
  match h : check a with
  | .ok ⟨⟩ => .ok ⟨a, h⟩
  | .error e => .error e

variable {a : α}

@[simp] theorem construct_eq_ok {r : Checked check} : construct a = .ok r ↔ r.val = a := by
  obtain ⟨b, hb⟩ := r
  unfold construct
  split
  · next h => simp [eq_comm]
  · next e h =>
    simp only [reduceCtorEq, false_iff]
    rintro rfl
    simp [hb] at h

/-- The rules that take code with checks and records apart, for `simp`. -/
theorem Py.eq_ok : (∀ {α β : Type} {x : Py α} {f : α → Py β} {b : β},
      (x >>= f) = .ok b ↔ ∃ a, x = .ok a ∧ f a = .ok b) ∧
    (∀ {α : Type} {a b : α}, (pure a : Py α) = .ok b ↔ a = b) ∧
    (∀ {α : Type} {o : Option α} {e : PyError} {a : α},
      Result.getOrThrow o e = .ok a ↔ o = some a) ∧
    (∀ {bad : Prop} [Decidable bad] {message : Str} {u : Unit},
      raiseIf bad message = .ok u ↔ ¬ bad) ∧
    (∀ {α : Type} {check : α → Py Unit} {a : α} {r : Checked check},
      construct a = .ok r ↔ r.val = a) ∧ ∀ {p : Prop}, ¬ ¬ p ↔ p :=
  ⟨Result.bind_eq_ok, Result.pure_eq_ok, Result.getOrThrow_eq_ok, raiseIf_eq_ok, construct_eq_ok,
    not_not⟩

/-- `dict(pairs).get(key)`: the last pair with the key wins. -/
def lookup {κ ν : Type} [DecidableEq κ] (pairs : List (κ × ν)) (key : κ) : Option ν :=
  (pairs.reverse.find? (·.1 = key)).map (·.2)

variable {κ ν : Type} {key : κ} {pairs : List (κ × ν)}

theorem lookup_eq_none [DecidableEq κ] : lookup pairs key = none ↔ key ∉ pairs.map (·.1) := by
  simp only [lookup, Option.map_eq_none_iff, List.find?_eq_none, List.mem_reverse,
    decide_eq_true_eq, List.mem_map, not_exists, not_and]

theorem lookup_append_singleton [DecidableEq κ] (pairs : List (κ × ν)) (pair : κ × ν) (key : κ) :
    lookup (pairs ++ [pair]) key = if pair.1 = key then some pair.2 else lookup pairs key := by
  unfold lookup
  rw [List.reverse_append, List.reverse_singleton, List.singleton_append, List.find?_cons]
  by_cases h : pair.1 = key <;> simp [h]

theorem mem_of_lookup [DecidableEq κ] (h : lookup pairs key = some value) :
    (key, value) ∈ pairs := by
  obtain ⟨pair, hfind, rfl⟩ := Option.map_eq_some_iff.1 h
  have hkey : pair.1 = key := by simpa using List.find?_some hfind
  rw [← hkey]
  exact List.mem_reverse.1 (List.mem_of_find?_eq_some hfind)

/-- With unique keys, the pair of a key is what is looked up. -/
theorem lookup_eq_some_iff [DecidableEq κ] (hnodup : (pairs.map (·.1)).Nodup) :
    lookup pairs key = some value ↔ (key, value) ∈ pairs := by
  have hreverse : (pairs.reverse.map (·.1)).Nodup := by
    rw [List.map_reverse, List.nodup_reverse]
    exact hnodup
  rw [lookup, Option.map_eq_some_iff]
  constructor
  · rintro ⟨pair, hfind, rfl⟩
    obtain ⟨hmem, rfl⟩ := (Keyed.find?_eq_some_iff hreverse).1 hfind
    exact List.mem_reverse.1 hmem
  · intro hmem
    exact ⟨(key, value), (Keyed.find?_eq_some_iff hreverse).2 ⟨List.mem_reverse.2 hmem, rfl⟩, rfl⟩

/-- `try: ... except ValueError as error: ...`; every other exception passes through. -/
def catchValueError {α : Type} (body : Py α) (handler : Str → α) : Py α :=
  match body with
  | .error (.valueError message) => .ok (handler message)
  | result => result

theorem catchValueError_eq_ok : catchValueError body handler = .ok a ↔
      body = .ok a ∨ ∃ message, body = .error (.valueError message) ∧ handler message = a := by
  unfold catchValueError
  split
  · simp
  · next hother =>
    refine ⟨.inl, fun h => h.elim id ?_⟩
    rintro ⟨message, hbody, -⟩
    exact absurd hbody (hother message)

/-- `except ValueError as error: raise ... from error`, with the text the new error has. -/
def rephrase {α : Type} (say : Str → Str) : Py α → Py α
  | .error (.valueError message) => .error (.valueError (say message))
  | result => result

@[simp] theorem rephrase_eq_ok : rephrase say body = .ok a ↔ body = .ok a := by
  unfold rephrase
  split <;> simp

/-! ## Dates -/

/-- The year, month and day of a number of days since the epoch, in the proleptic Gregorian
calendar. -/
def civilDate (days : Int) : Int × Int × Int :=
  -- years begin in March, so that the leap day is the last of its year
  let shifted := days + 719468
  let era := shifted / 146097
  let dayOfEra := shifted % 146097
  let yearOfEra := (dayOfEra - dayOfEra / 1460 + dayOfEra / 36524 - dayOfEra / 146096) / 365
  let dayOfYear := dayOfEra - (365 * yearOfEra + yearOfEra / 4 - yearOfEra / 100)
  let shiftedMonth := (5 * dayOfYear + 2) / 153
  let day := dayOfYear - (153 * shiftedMonth + 2) / 5 + 1
  let month := if shiftedMonth < 10 then shiftedMonth + 3 else shiftedMonth - 9
  let year := yearOfEra + era * 400 + if month ≤ 2 then 1 else 0
  (year, month, day)

/-- A number in decimal, with leading zeros. -/
def zeroPadded (width : Nat) (n : Int) : Str :=
  let digits := Nat.toDigits 10 n.natAbs
  ⟨List.replicate (width - digits.length) '0' ++ digits⟩

/-- `instant.isoformat()` of an aware UTC `datetime`. -/
def isoformat (instant : Instant) : Str :=
  let (year, month, day) := civilDate (instant / 86400000000)
  let microseconds := instant % 86400000000
  let seconds := microseconds / 1000000
  zeroPadded 4 year ++ "-" ++ zeroPadded 2 month ++ "-" ++ zeroPadded 2 day ++ "T" ++
    zeroPadded 2 (seconds / 3600) ++ ":" ++ zeroPadded 2 (seconds / 60 % 60) ++ ":" ++
    zeroPadded 2 (seconds % 60) ++
    (if microseconds % 1000000 = 0 then ⟨[]⟩ else "." ++ zeroPadded 6 (microseconds % 1000000)) ++
    "+00:00"

example : isoformat 1709210096000001 = "2024-02-29T12:34:56.000001+00:00" := by decide +kernel

/-! ## Text -/

/-- The characters `str.strip` removes. -/
def isSpace (c : Char) : Bool :=
  let n := c.toNat
  (9 ≤ n && n ≤ 13) || (28 ≤ n && n ≤ 32) || n == 0x85 || n == 0xA0 || n == 0x1680 ||
    (0x2000 ≤ n && n ≤ 0x200A) || n == 0x2028 || n == 0x2029 || n == 0x202F || n == 0x205F ||
    n == 0x3000

/-- `value == value.strip()`. -/
def isTrimmed (value : Str) : Bool :=
  value.chars.head?.all (!isSpace ·) && value.chars.getLast?.all (!isSpace ·)

/-- The check the reducers make of an identifier. -/
def requireText (value fieldName : Str) : Py Unit :=
  raiseIf (value = "" ∨ ¬ isTrimmed value) (fieldName ++ " must be a non-empty, trimmed string")

/-- The text is neither empty nor padded. -/
def isText (value : Str) : Prop := value ≠ "" ∧ isTrimmed value

instance (value : Str) : Decidable (isText value) := inferInstanceAs (Decidable (_ ∧ _))

variable {value : Str}

theorem requireText_eq_ok : requireText value fieldName = .ok u ↔ isText value := by
  simp [requireText, isText]

/-- The same check of a value that may be absent. -/
def requireOptionalText (value : Option Str) (fieldName : Str) : Py Unit :=
  match value with
  | some text => requireText text fieldName
  | none => pure ⟨⟩

/-- The check the market records make of an identifier. -/
def requireTrimmed (value fieldName : Str) : Py Unit :=
  raiseIf (value = "" ∨ ¬ isTrimmed value) (fieldName ++ " must be non-empty and trimmed")

/-- The check the personal contracts make of an identifier, which also bounds its length. -/
def requireBoundedText (value name : Str) : Py Unit :=
  raiseIf (value = "" ∨ ¬ isTrimmed value ∨ 2048 < value.chars.length)
    (name ++ " requires bounded nonempty trimmed text")

/-- The text is neither empty nor padded, and not too long. -/
def isBoundedText (value : Str) : Prop := isText value ∧ value.chars.length ≤ 2048

instance (value : Str) : Decidable (isBoundedText value) := inferInstanceAs (Decidable (_ ∧ _))

theorem requireBoundedText_eq_ok : requireBoundedText value name = .ok u ↔ isBoundedText value := by
  simp [requireBoundedText, isBoundedText, isText, and_assoc]

end AutoQuantTrader
