import FleetDispatch.Main
import FleetDispatch.Scenario.Session
import FleetDispatch.Store.Ledger
import FleetDispatch.Proofs.Store.Rows
import FleetDispatch.Proofs.Store.WellFormed
import FleetDispatch.Proofs.Store.Legible
import FleetDispatch.Proofs.Store.Transaction
import FleetDispatch.Proofs.Dispatch.Turn
import FleetDispatch.Proofs.Dispatch.World
import FleetDispatch.Proofs.Dispatch.Stride
import FleetDispatch.Proofs.Dispatch.Refresh
import FleetDispatch.Proofs.Dispatch.Budget
import FleetDispatch.Proofs.Dispatch.Prerequisite
import FleetDispatch.Proofs.Store.Codec
import FleetDispatch.Proofs.Store.Reading
import FleetDispatch.Proofs.Dispatch.Debt
import FleetDispatch.Proofs.Dispatch.Walk
import FleetDispatch.Proofs.Dispatch.Drain
import FleetDispatch.Proofs.Json.RoundTrip
import FleetDispatch.Proofs.Json.Stored
import FleetDispatch.Proofs.Store.Paired
import FleetDispatch.Proofs.Store.Parallel
import FleetDispatch.Proofs.Store.Twin
import FleetDispatch.Proofs.Store.Mirror
import FleetDispatch.Proofs.Dispatch.Twin
import FleetDispatch.Proofs.Dispatch.Lockstep
import FleetDispatch.Proofs.Dispatch.History
import FleetDispatch.Proofs.Pool.Crew
import FleetDispatch.Proofs.Pool.Occupancy
import FleetDispatch.Proofs.Pool.Slots
import FleetDispatch.Proofs.Pool.Load
import FleetDispatch.Proofs.Pool.Requests
import FleetDispatch.Proofs.Dispatch.Follow
import FleetDispatch.Proofs.Dispatch.Course
import FleetDispatch.Proofs.Dispatch.Trail
import FleetDispatch.Proofs.Dispatch.Failure
import FleetDispatch.Proofs.Store.Fault
import FleetDispatch.Proofs.Dispatch.Agenda
import FleetDispatch.Proofs.Dispatch.Calls
import FleetDispatch.Proofs.Dispatch.Events
import FleetDispatch.Proofs.Dispatch.Account
import FleetDispatch.Proofs.Dispatch.Poll
import FleetDispatch.Proofs.Json.Depth
import FleetDispatch.Proofs.Json.Parsed
import FleetDispatch.Proofs.Dispatch.Readback
import FleetDispatch.Proofs.Store.Transcript
import FleetDispatch.Proofs.Store.Near
import FleetDispatch.Proofs.Dispatch.Alike
import FleetDispatch.Proofs.Dispatch.Abreast
import FleetDispatch.Proofs.Dispatch.Weave
import FleetDispatch.Proofs.Transition
import FleetDispatch.Proofs.Store.Lead
import FleetDispatch.Proofs.Dispatch.Lead
import FleetDispatch.Proofs.Verdict
import FleetDispatch.Proofs.Helper.Meaning
import FleetDispatch.Proofs.Dispatch.Standing
import FleetDispatch.Proofs.Dispatch.Cascade
import FleetDispatch.Proofs.Dispatch.Punctual
import FleetDispatch.Proofs.Pool.Totals
import FleetDispatch.Proofs.Store.Steady
import FleetDispatch.Proofs.Dispatch.Steady
import FleetDispatch.Proofs.Dispatch.Testimony
import FleetDispatch.Proofs.Text.Substitute
import FleetDispatch.Proofs.Helper.Template
import FleetDispatch.Proofs.Backlog
import FleetDispatch.Proofs.Store.Creation
import FleetDispatch.Proofs.Dispatch.Creation
import FleetDispatch.Proofs.Pool.Turns
import FleetDispatch.Proofs.Pool.Asks
import FleetDispatch.Proofs.Pool.Polls
import FleetDispatch.Proofs.Dispatch.Survey
import FleetDispatch.Proofs.Record
import FleetDispatch.Proofs.Text.Utf8
import FleetDispatch.Proofs.States
import FleetDispatch.Proofs.Store.Intact
import FleetDispatch.Proofs.Store.Saved
