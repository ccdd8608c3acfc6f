import LocalSat.Checker.Value
import LocalSat.Main
import LocalSat.Solver.Values
import LocalSat.Trace.Replay
import LocalSat.Proofs.Propagation.Reduction
import LocalSat.Proofs.Propagation.Closure
import LocalSat.Proofs.Propagation.Reduct
import LocalSat.Proofs.Solver.Increment
import LocalSat.Proofs.Search.Index
import LocalSat.Proofs.Outcome
import LocalSat.Proofs.Random.Faults
import LocalSat.Proofs.Search.Choice
import LocalSat.Proofs.Search.Break
import LocalSat.Proofs.Solver.Search
import LocalSat.Proofs.Solver.Budget
import LocalSat.Proofs.Agreement
import LocalSat.Proofs.Solver.Lockstep
import LocalSat.Proofs.Random.Tape
import LocalSat.Proofs.Random.Replies
import LocalSat.Proofs.Solver.Bookkeeping
import LocalSat.Proofs.Solver.Simplify
import LocalSat.Proofs.Solver.Solve
import LocalSat.Proofs.Solver.Consulting
import LocalSat.Proofs.Session.Basic
import LocalSat.Proofs.Session.Models
import LocalSat.Proofs.Session.Soundness
import LocalSat.Proofs.Session.Prefix
import LocalSat.Proofs.Session.Safety
import LocalSat.Proofs.Session.Additions
import LocalSat.Proofs.Search.Census
import LocalSat.Proofs.Search.Flip
import LocalSat.Proofs.Search.Policy
import LocalSat.Proofs.Search.Turn
import LocalSat.Proofs.Random.Logged
import LocalSat.Proofs.Trace.Replay
import LocalSat.Proofs.Trace.Scan
import LocalSat.Proofs.Solver.Account
import LocalSat.Proofs.Session.Record
import LocalSat.Proofs.Session.Questions
import LocalSat.Proofs.Propagation.Repeat
import LocalSat.Proofs.Solver.Parallel
import LocalSat.Proofs.Session.Fresh
import LocalSat.Proofs.Session.Again
import LocalSat.Proofs.Solver.Narrow
import LocalSat.Proofs.Text.Words
import LocalSat.Proofs.Number.Integer
import LocalSat.Proofs.Trace.Text
import LocalSat.Proofs.Random.Seed
import LocalSat.Proofs.Batch.Run
import LocalSat.Proofs.Search.Operations
import LocalSat.Proofs.Session.Observers
import LocalSat.Proofs.Planted.Clause
import LocalSat.Proofs.Planted.Patch
import LocalSat.Proofs.Planted.Formula
import LocalSat.Proofs.Formula.Line
import LocalSat.Proofs.Formula.RoundTrip
import LocalSat.Proofs.Planted.Solve
import LocalSat.Proofs.Planted.Spare
import LocalSat.Proofs.Random.Sample
import LocalSat.Proofs.Text.Lines
import LocalSat.Proofs.Propagation.Rounds
import LocalSat.Proofs.Solver.Stroke
import LocalSat.Proofs.Session.Rounds
import LocalSat.Proofs.Solver.Choice
import LocalSat.Proofs.Solver.Flip
import LocalSat.Proofs.Session.Building
import LocalSat.Proofs.CommandLine.Solve
import LocalSat.Proofs.Except
import LocalSat.Proofs.Trace.Alternation
import LocalSat.Proofs.Formula.Meaning
import LocalSat.Proofs.Number.Dyadic
import LocalSat.Proofs.Analysis.Summary
import LocalSat.Proofs.Options
import LocalSat.Proofs.Session.Inputs
import LocalSat.Proofs.Formula.Extension
import LocalSat.Proofs.Session.Frozen
import LocalSat.Proofs.Batch.Summary
import LocalSat.Proofs.Folder
