import BlockRelay.Audit.Row
import BlockRelay.Text.Blank

/-!
# Statements of the audit database

The tables of the audit database, and the statements that create and fill them. A deployment's
tables share the beginning of their names (`Tables.of`). The text of an insert lists the names of
its columns and then the placeholders of their values; the values themselves are listed beside it
in the order of the placeholders' numbers. Inserts of submissions and of deliveries share the
columns of the bid (`bidNames`, `BidColumns.params`).

Numbers of 64 bits have no sign here and one in the database, so a row may not fit
(`RowError`); then no statement is made.
-/

namespace BlockRelay

/-! ### Tables -/

/-- The names of the tables of one deployment. -/
structure Tables where
  registration : String
  submission : String
  simulation : String
  delivery : String
deriving DecidableEq, Repr

/-- What the names of the tables begin with in a deployment that does not say. -/
def defaultTablePrefix : String := "dev"

namespace Tables

/-- The tables of a deployment. -/
def of (deployment : String) : Tables where
  registration := deployment ++ "_validator_registration"
  submission := deployment ++ "_builder_block_submission"
  simulation := deployment ++ "_builder_block_sim_result"
  delivery := deployment ++ "_payload_delivered"

/-- The columns that every table begins with. -/
def keyColumns : List String :=
  ["id bigint GENERATED BY DEFAULT AS IDENTITY PRIMARY KEY",
    "inserted_at timestamp NOT NULL default current_timestamp"]

/-- The columns of a bid. -/
def bidColumns : List String :=
  ["epoch bigint NOT NULL", "slot bigint NOT NULL", "builder_pubkey text NOT NULL",
    "proposer_pubkey text NOT NULL", "proposer_fee_recipient text NOT NULL",
    "parent_hash text NOT NULL", "block_hash text NOT NULL", "block_number bigint NOT NULL",
    "num_tx int NOT NULL", "value NUMERIC(48, 0)", "gas_used bigint NOT NULL",
    "gas_limit bigint NOT NULL"]

/-- The statement that makes a table. -/
def create (table : String) (columns : List String) : String :=
  "CREATE TABLE IF NOT EXISTS " ++ table ++ " ( " ++
    ", ".intercalate (keyColumns ++ columns) ++ " )"

/-- The name of the index over the slots of a table. -/
def slotIndex (table : String) : String := table ++ "_slot_idx"

/-- The statement that makes an index over the slots of a table. -/
def createSlotIndex (table : String) : String :=
  "CREATE INDEX IF NOT EXISTS " ++ slotIndex table ++ " ON " ++ table ++ " (slot)"

/-- **The statements that make the tables,** a table before those that refer to it. Making them
again changes nothing. -/
def schema (t : Tables) : List String := [
  create t.registration
    ["pubkey varchar(98) NOT NULL UNIQUE", "fee_recipient varchar(42) NOT NULL",
      "timestamp bigint NOT NULL", "gas_limit bigint NOT NULL", "signature text NOT NULL"],
  create t.submission (bidColumns ++ ["payload json NOT NULL"]),
  create t.simulation
    ["block_submission_id bigint references " ++ t.submission ++ "(id) ON DELETE CASCADE",
      "success boolean NOT NULL", "error text NOT NULL"],
  create t.delivery (bidColumns ++
    ["execution_payload json NOT NULL", "bid_trace json NOT NULL",
      "bid_trace_builder_sig text NOT NULL", "signed_builder_bid json NOT NULL",
      "signed_blinded_beacon_block json NOT NULL"]),
  createSlotIndex t.submission,
  createSlotIndex t.delivery]

end Tables

/-! ### Parameters -/

/-- The value of a parameter. -/
inductive SqlValue where
  | bigint (n : Int64)
  | int (n : Int32)
  | boolean (b : Bool)
  | text (s : String)
  | json (j : Json)

/-- A statement with its parameters. -/
structure Statement where
  /-- The text, with `$1`, `$2`, … for the parameters. -/
  sql : String
  params : List SqlValue

/-- Characters with every run of blanks written as one space, and none at the end. -/
def squeezedChars : List Char → List Char
  | [] => []
  | c :: cs =>
    if Text.isBlank c then
      if cs.head?.elim true Text.isBlank then squeezedChars cs else ' ' :: squeezedChars cs
    else c :: squeezedChars cs

/-- A text with every run of blanks written as one space, and none at the ends. -/
def squeezed (s : String) : String :=
  String.ofList (squeezedChars (s.toList.dropWhile Text.isBlank))

/-! ### Rows that do not fit -/

/-- Why a row does not fit its table. -/
inductive RowError where
  /-- The value of a column is too large for an integer with a sign. -/
  | bigint (column : String) (value : UInt64)
  /-- There are too many transactions for an integer of 32 bits. -/
  | transactionCount
deriving DecidableEq, Repr

/-- The wording of a row that does not fit. -/
def RowError.message : RowError → String
  | .bigint column value =>
    column ++ " " ++ Text.Decimal.text value.toNat ++ " does not fit in bigint"
  | .transactionCount => "num_tx does not fit in int"

namespace SqlValue

/-- The value for a column of integers. -/
def ofUInt64 (column : String) (n : UInt64) : Except RowError SqlValue :=
  if n.toNat < 0x8000000000000000 then .ok (.bigint (Int64.ofNat n.toNat))
  else .error (.bigint column n)

/-- The value for the column of the number of transactions. -/
def ofCount (n : UInt64) : Except RowError SqlValue :=
  if n.toNat < 0x80000000 then .ok (.int (Int32.ofNat n.toNat)) else .error .transactionCount

/-- The value of an amount: decimal text, to be cast to a number of any size. -/
def ofWord256 (w : Word256) : SqlValue := .text (Text.Decimal.text w.toNat)

end SqlValue

/-! ### Inserts -/

/-- The names of a bid's columns. -/
def bidNames : String :=
  "epoch, slot, builder_pubkey, proposer_pubkey, proposer_fee_recipient, " ++
    "parent_hash, block_hash, block_number, num_tx, value, gas_used, gas_limit"

/-- The values of a bid, for `$1` to `$12` in the order of `bidNames`. -/
def BidColumns.params (b : BidColumns) : Except RowError (List SqlValue) := do
  return [
    ← SqlValue.ofUInt64 "epoch" b.epoch,
    ← SqlValue.ofUInt64 "slot" b.slot,
    .text b.builder,
    .text b.proposer,
    .text b.feeRecipient,
    .text b.parentHash,
    .text b.blockHash,
    ← SqlValue.ofUInt64 "block_number" b.blockNumber,
    ← SqlValue.ofCount b.transactionCount,
    .ofWord256 b.value,
    ← SqlValue.ofUInt64 "gas_used" b.gasUsed,
    ← SqlValue.ofUInt64 "gas_limit" b.gasLimit]

/-- The end of the statement for a registration: a row of the same key is replaced if it is
older. -/
def replaceOlder (table : String) : String :=
  " ON CONFLICT (pubkey) DO UPDATE SET fee_recipient = EXCLUDED.fee_recipient, " ++
    "timestamp = EXCLUDED.timestamp, gas_limit = EXCLUDED.gas_limit, " ++
    "signature = EXCLUDED.signature WHERE " ++ table ++ ".timestamp < EXCLUDED.timestamp"

/-- The statement for a registration. -/
def RegistrationRow.insert (t : Tables) (r : RegistrationRow) : Except RowError Statement := do
  return {
    sql := "INSERT INTO " ++ t.registration ++
      " (pubkey, fee_recipient, timestamp, gas_limit, signature) VALUES ($1, $2, $3, $4, $5)" ++
      replaceOlder t.registration
    params := [
      .text r.pubkey,
      .text r.feeRecipient,
      ← SqlValue.ofUInt64 "timestamp" r.timestamp,
      ← SqlValue.ofUInt64 "gas_limit" r.gasLimit,
      .text r.signature] }

/-- The columns of a submission and their placeholders. -/
def submissionColumns : String :=
  " (" ++ bidNames ++ ", payload) VALUES (" ++
    "$1, $2, $3, $4, $5, $6, $7, $8, $9, $10::numeric, $11, $12, $13::json)"

/-- The statement for a submission; it answers the number of the new row. -/
def SubmissionRow.insert (t : Tables) (r : SubmissionRow) : Except RowError Statement := do
  return {
    sql := "INSERT INTO " ++ t.submission ++ submissionColumns ++ " RETURNING id"
    params := (← r.bid.params) ++ [.json r.payload] }

/-- The statement for an outcome. -/
def SimulationRow.insert (t : Tables) (r : SimulationRow) : Statement where
  sql := "INSERT INTO " ++ t.simulation ++
    " (block_submission_id, success, error) VALUES ($1, $2, $3)"
  params := [.bigint r.submissionId, .boolean r.success, .text r.error]

/-- The columns of a delivery and their placeholders. -/
def deliveryColumns : String :=
  " (" ++ bidNames ++ ", execution_payload, bid_trace, bid_trace_builder_sig, " ++
    "signed_builder_bid, signed_blinded_beacon_block) VALUES (" ++
    "$1, $2, $3, $4, $5, $6, $7, $8, $9, $10::numeric, $11, $12, " ++
    "$13::json, $14::json, $15, $16::json, $17::json)"

/-- The statement for a delivery. -/
def DeliveryRow.insert (t : Tables) (r : DeliveryRow) : Except RowError Statement := do
  return {
    sql := "INSERT INTO " ++ t.delivery ++ deliveryColumns
    params := (← r.bid.params) ++ [
      .json r.payload,
      .json r.trace,
      .text r.traceSignature,
      .json r.signedBid,
      .json r.signedBlock] }

end BlockRelay
