import ConsentGate.Calendar.Date
import ConsentGate.Calendar.IsoReader
import ConsentGate.Calendar.IsoText
import ConsentGate.Calendar.Timestamp
import ConsentGate.Calendar.Zone
import ConsentGate.Consent.Cache
import ConsentGate.Consent.Record
import ConsentGate.Consent.Source
import ConsentGate.Consent.Validator
import ConsentGate.Contribution
import ConsentGate.Credential.Filters
import ConsentGate.Credential.Scan
import ConsentGate.Credential.Shapes
import ConsentGate.Digest.Base64
import ConsentGate.Digest.Hmac
import ConsentGate.Digest.Sha256
import ConsentGate.Entity.Access
import ConsentGate.Entity.Basic
import ConsentGate.Entity.Domain
import ConsentGate.Entity.Payload
import ConsentGate.Failure
import ConsentGate.Field.Category
import ConsentGate.Field.Key
import ConsentGate.Field.Rules
import ConsentGate.Hasher
import ConsentGate.Ledger.Cell
import ConsentGate.Ledger.CellType
import ConsentGate.Ledger.Condition
import ConsentGate.Ledger.Isolation
import ConsentGate.Ledger.Row
import ConsentGate.Ledger.Store
import ConsentGate.Level
import ConsentGate.Log
import ConsentGate.Number.Binary64
import ConsentGate.Number.Decimal
import ConsentGate.Number.DecimalSum
import ConsentGate.Number.FloatText
import ConsentGate.Number.Numeral
import ConsentGate.Number.Quantity
import ConsentGate.Number.Scaled
import ConsentGate.Number.Shortest
import ConsentGate.Proofs.Calendar.Instants
import ConsentGate.Proofs.Calendar.IsoRoundTrip
import ConsentGate.Proofs.Calendar.MonthText
import ConsentGate.Proofs.Calendar.Months
import ConsentGate.Proofs.Calendar.Ordinals
import ConsentGate.Proofs.Consent.Coherence
import ConsentGate.Proofs.Consent.Freshness
import ConsentGate.Proofs.Consent.Grounds
import ConsentGate.Proofs.Consent.Interleaving
import ConsentGate.Proofs.Consent.LevelNames
import ConsentGate.Proofs.Consent.Payloads
import ConsentGate.Proofs.Consent.Recency
import ConsentGate.Proofs.Consent.Transparency
import ConsentGate.Proofs.Contribution.Acceptance
import ConsentGate.Proofs.Contribution.Calls
import ConsentGate.Proofs.Contribution.History
import ConsentGate.Proofs.Contribution.MonthColumns
import ConsentGate.Proofs.Contribution.Provenance
import ConsentGate.Proofs.Contribution.Rows
import ConsentGate.Proofs.Contribution.TenantText
import ConsentGate.Proofs.Credential.Context
import ConsentGate.Proofs.Credential.Lines
import ConsentGate.Proofs.Credential.Numeric
import ConsentGate.Proofs.Entity.Access
import ConsentGate.Proofs.Entity.Payloads
import ConsentGate.Proofs.Field.Idempotence
import ConsentGate.Proofs.Field.LetterCase
import ConsentGate.Proofs.Field.NormalForm
import ConsentGate.Proofs.Field.Spelling
import ConsentGate.Proofs.Hasher.Identities
import ConsentGate.Proofs.Ledger.AppendOnly
import ConsentGate.Proofs.Ledger.Containment
import ConsentGate.Proofs.Ledger.Encoding
import ConsentGate.Proofs.Ledger.Locations
import ConsentGate.Proofs.Number.FloatRoundTrip
import ConsentGate.Proofs.Number.Numerals
import ConsentGate.Proofs.Number.Order
import ConsentGate.Proofs.Number.Rounding
import ConsentGate.Proofs.Number.Scientific
import ConsentGate.Proofs.Number.Whole
import ConsentGate.Proofs.Scrub.Coarsening
import ConsentGate.Proofs.Scrub.Credentials
import ConsentGate.Proofs.Scrub.Fields
import ConsentGate.Proofs.Scrub.Identifiers
import ConsentGate.Proofs.Scrub.Independence
import ConsentGate.Proofs.Scrub.Ingestion
import ConsentGate.Proofs.Scrub.Keys
import ConsentGate.Proofs.Scrub.Levels
import ConsentGate.Proofs.Scrub.Noninterference
import ConsentGate.Proofs.Scrub.Once
import ConsentGate.Proofs.Scrub.Origins
import ConsentGate.Proofs.Scrub.Paths
import ConsentGate.Proofs.Scrub.Places
import ConsentGate.Proofs.Scrub.Pruning
import ConsentGate.Proofs.Scrub.Recording
import ConsentGate.Proofs.Scrub.Settled
import ConsentGate.Proofs.Scrub.Success
import ConsentGate.Proofs.Scrub.Unsupported
import ConsentGate.Proofs.Scrub.ValueModel
import ConsentGate.Proofs.Scrub.Whole
import ConsentGate.Proofs.Sorting.Permutation
import ConsentGate.Proofs.Text.Letters
import ConsentGate.Proofs.Text.Lowered
import ConsentGate.Proofs.Text.Spelling
import ConsentGate.Proofs.Value.Dates
import ConsentGate.Proofs.Value.EpochMonths
import ConsentGate.Proofs.Value.Image
import ConsentGate.Proofs.Value.JsonTexts
import ConsentGate.Proofs.Value.Offenders
import ConsentGate.Proofs.Value.Reading
import ConsentGate.Proofs.Value.RoundTrip
import ConsentGate.Proofs.Value.Texts
import ConsentGate.Proofs.Value.Writing
import ConsentGate.Scrub.Entity
import ConsentGate.Scrub.Field
import ConsentGate.Scrub.Trail
import ConsentGate.Sorting.Basic
import ConsentGate.Sorting.Merge
import ConsentGate.Sorting.Run
import ConsentGate.Sorting.Search
import ConsentGate.Text.Blank
import ConsentGate.Text.CaseFold
import ConsentGate.Text.CaseRun
import ConsentGate.Text.Caseless
import ConsentGate.Text.CodePoint
import ConsentGate.Text.CodeRanges
import ConsentGate.Text.Cut
import ConsentGate.Text.Digit
import ConsentGate.Text.LowerCase
import ConsentGate.Text.Pattern
import ConsentGate.Text.PatternReader
import ConsentGate.Text.Printable
import ConsentGate.Text.Quoted
import ConsentGate.Text.Word
import ConsentGate.Value.Basic
import ConsentGate.Value.Json
import ConsentGate.Value.JsonReader
import ConsentGate.Value.Model
import ConsentGate.Value.Moment
import ConsentGate.Value.Order
import ConsentGate.Value.Text
