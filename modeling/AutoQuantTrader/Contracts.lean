import AutoQuantTrader.Decimal

/-!
# Values shared by every component

Identifiers, the two sides of an order, the point of a reduction and the causal mark.

`canonical_id` and the SHA-256 digests are functions of what they cover and of nothing else.  No
component looks inside a digest, so each group of components takes the digests it uses as
parameters; `IdPart` is what an identifier is derived from.
-/

namespace AutoQuantTrader

/-- A component of the material of a canonical identifier, tagged with its type. -/
inductive IdPart where
  | text (value : Str)
  | decimal (value : ℚ)
  | instant (value : Instant)
  | day (value : Day)
  | integer (value : Int)
  | enum (className value : Str)

/-- `canonical_id(kind, *parts)`. -/
abbrev CanonicalId := Str → List IdPart → Str

def IdPart.spell : IdPart → Str
  | .text value => value
  | .decimal value => Str.ofInt value.num ++ "/" ++ Str.ofInt value.den
  | .instant value => Str.ofInt value
  | .day value => Str.ofInt value
  | .integer value => Str.ofInt value
  | .enum _ value => value

/-- Identifiers that spell out what they name, to run the model with. -/
def plainId : CanonicalId := fun kind parts =>
  parts.foldl (fun spelt part => spelt ++ ":" ++ part.spell) kind

/-- Identifiers of digits: a checksum stands for what is named. -/
def digitsId : CanonicalId := fun kind parts =>
  let checksum := (plainId kind parts).chars.foldl
    (fun (sum : Nat) c => (sum * 131 + c.toNat) % 2305843009213693951) 7
  Str.mk ((List.range 36).map fun i => Char.ofNat (48 + checksum / 10 ^ i % 10))

/-- The symbol survives `str.upper`, as far as ASCII letters go. -/
def isUppercase (value : Str) : Bool := value.chars.all fun c => !c.isLower

/-- Three letters in upper case, as far as ASCII goes. -/
def isCurrencyCode (value : Str) : Bool :=
  value.chars.length == 3 && value.chars.all fun c => c.isUpper || 128 ≤ c.toNat

inductive Side where
  | buy | sell
deriving DecidableEq, Repr

/-- `Side` as the enumeration value it is written as. -/
def Side.value : Side → Str
  | .buy => "buy"
  | .sell => "sell"

/-- `+1` for a purchase and `-1` for a sale. -/
def Side.sign : Side → ℚ
  | .buy => 1
  | .sell => -1

instance neZeroNine : NeZero 9 := ⟨by decide⟩

/-- Where in a run a fact was reduced. -/
structure ReductionPoint where
  (frontierSequence reductionSequence : Nat)
  knowledgeAt : Instant
  stage : Fin 9
deriving DecidableEq

inductive MarkQuality where
  | current | lastKnown | unavailable
deriving DecidableEq

inductive MarkBasis where
  | rawClose | rawExecution | syntheticBoundary
deriving DecidableEq

structure CausalMarkFields where
  (markId instrumentId symbol : Str)
  price : ℚ
  session : Day
  (economicAt knowledgeAt : Instant)
  sourceSha256 : Str
  quality : MarkQuality
  basis : MarkBasis
deriving DecidableEq

def CausalMarkFields.postInit (m : CausalMarkFields) : Py Unit := do
  requireBoundedText m.markId "mark_id"
  requireBoundedText m.instrumentId "instrument_id"
  requireBoundedText m.symbol "symbol"
  requireAmount m.price "mark price" false true false
  raiseIf (m.knowledgeAt < m.economicAt) "mark cannot precede economic time"

/-- A price of an instrument, with when it held and when it was known. -/
abbrev CausalMark := Checked CausalMarkFields.postInit

/-- What the code asks the time zone database about New York. -/
structure EasternTime where
  /-- `instant.astimezone(EASTERN).date()`. -/
  date : Instant → Day
  /-- `datetime.combine(day, time(0, minute), EASTERN).astimezone(UTC)`, by minute of the day. -/
  instant : Day → Nat → Instant

/-- Eastern Standard Time all year round: five hours behind UTC. -/
def EasternTime.standard : EasternTime where
  date moment := (moment - 18000000000) / 86400000000 + 719163
  instant day minute := (day - 719163) * 86400000000 + minute * 60000000 + 18000000000

end AutoQuantTrader
