import YieldVault.Amount.Arithmetic
import YieldVault.Amount.Basic
import YieldVault.Amount.Division
import YieldVault.Amount.Reader
import YieldVault.Amount.Rounding
import YieldVault.Amount.Text
import YieldVault.Amount.Wire
import YieldVault.Broadcast
import YieldVault.Calendar.Date
import YieldVault.Calendar.Moment
import YieldVault.Caption
import YieldVault.Connection
import YieldVault.Demo
import YieldVault.Entry
import YieldVault.Environment
import YieldVault.Fault
import YieldVault.Figure
import YieldVault.Json.Basic
import YieldVault.Json.Lexer
import YieldVault.Json.Reader
import YieldVault.Json.Record
import YieldVault.Lifecycle
import YieldVault.Main
import YieldVault.Panel
import YieldVault.Position
import YieldVault.Power
import YieldVault.Proofs.Amount.Arithmetic
import YieldVault.Proofs.Amount.Nearest
import YieldVault.Proofs.Amount.Quotient
import YieldVault.Proofs.Amount.Value
import YieldVault.Proofs.Desk.Cancellation
import YieldVault.Proofs.Desk.Custody
import YieldVault.Proofs.Desk.Ending
import YieldVault.Proofs.Desk.Freshness
import YieldVault.Proofs.Desk.Ledger
import YieldVault.Proofs.Desk.Origin
import YieldVault.Proofs.Desk.Path
import YieldVault.Proofs.Desk.Reach
import YieldVault.Proofs.Desk.Refusal
import YieldVault.Proofs.Desk.Run
import YieldVault.Proofs.Desk.Stream
import YieldVault.Proofs.Lifecycle.Slot
import YieldVault.Proofs.Position.Agreement
import YieldVault.Proofs.Position.Conservation
import YieldVault.Proofs.Position.Receipt
import YieldVault.Proofs.Session.Change
import YieldVault.Proofs.Session.Effect
import YieldVault.Proofs.Session.Operation
import YieldVault.Proofs.Session.Publish
import YieldVault.Proofs.Session.Segment
import YieldVault.Proofs.Session.Settlement
import YieldVault.Session.Authorization
import YieldVault.Session.Basic
import YieldVault.Session.Desk
import YieldVault.Session.Event
import YieldVault.Session.Flow
import YieldVault.Session.State
import YieldVault.Settings
import YieldVault.Simulation.Run
import YieldVault.Simulation.Sample
import YieldVault.Simulation.Script
import YieldVault.Simulation.Wallet
import YieldVault.Simulation.World
import YieldVault.Text.Blank
import YieldVault.Text.Glyph
import YieldVault.Text.Numeral
import YieldVault.Text.Quoted
import YieldVault.Token
import YieldVault.Trace
import YieldVault.Vault.Kind
import YieldVault.Vault.Quote
import YieldVault.Vault.Snapshot
import YieldVault.Vault.Wire
import YieldVault.Verdict
import YieldVault.Wait
import YieldVault.Proofs.Desk.Connecting
import YieldVault.Proofs.Position.History
import YieldVault.Proofs.Desk.Provenance
import YieldVault.Proofs.Text.Numeral
import YieldVault.Proofs.Amount.Wire
import YieldVault.Proofs.Calendar.Date
import YieldVault.Proofs.Json.Reader
import YieldVault.Proofs.Json.Record
import YieldVault.Proofs.Vault.RoundTrip
import YieldVault.Proofs.Position.Conversion
import YieldVault.Proofs.Desk.Reading
import YieldVault.Proofs.Desk.Tokens
import YieldVault.Proofs.Simulation.Waiting
import YieldVault.Proofs.Simulation.Submission
import YieldVault.Proofs.Amount.Order
import YieldVault.Proofs.Amount.Midpoint
import YieldVault.Proofs.Amount.Reader
import YieldVault.Proofs.Entry.Start
import YieldVault.Proofs.Amount.Layout
import YieldVault.Proofs.Amount.Display
import YieldVault.Proofs.Figure.Number
import YieldVault.Proofs.Verdict.Limit
import YieldVault.Proofs.Session.Maximum
import YieldVault.Proofs.Verdict.Advice
import YieldVault.Proofs.Session.Draft
import YieldVault.Proofs.Desk.Tickets
import YieldVault.Proofs.Lifecycle.Books
import YieldVault.Proofs.Session.Dialogue
import YieldVault.Proofs.Desk.Settings
import YieldVault.Proofs.Desk.Grant
import YieldVault.Proofs.Simulation.Network
import YieldVault.Proofs.Broadcast.Delivery
import YieldVault.Proofs.Figure.Dollars
import YieldVault.Proofs.Session.Audience
