import GridQuery.Main
import GridQuery.Proofs.Evaluation
import GridQuery.Proofs.Meaning
import GridQuery.Query.Postfix
import GridQuery.Session
import GridQuery.Proofs.Agreement
import GridQuery.Proofs.Check
import GridQuery.Proofs.Progress
import GridQuery.Proofs.Transpose
import GridQuery.Proofs.Json.Query
import GridQuery.Proofs.Session
import GridQuery.Proofs.Bounds
import GridQuery.Proofs.Grid.Forms
import GridQuery.Proofs.Substitution
import GridQuery.Proofs.Verdict
import GridQuery.Proofs.Settling
import GridQuery.Proofs.Comprehension
import GridQuery.Proofs.Exchange
import GridQuery.Proofs.Totals
import GridQuery.Proofs.Grid.Lines
import GridQuery.Proofs.Trace
import GridQuery.Proofs.Readable
import GridQuery.Proofs.Rearrangement
import GridQuery.Proofs.Polynomial
import GridQuery.Proofs.Division
import GridQuery.Proofs.Sets
import GridQuery.Proofs.Counting
import GridQuery.Proofs.Grid.Rows
import GridQuery.Proofs.Json.Accepted
import GridQuery.Proofs.Values
