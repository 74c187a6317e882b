import LowDimLP.Main
import LowDimLP.Proofs.ExactArithmetic
import LowDimLP.Proofs.Geometry.Linear
import LowDimLP.Proofs.Geometry.Chart
import LowDimLP.Proofs.LinearProgram
import LowDimLP.Proofs.Geometry.Trace
import LowDimLP.Proofs.Run
import LowDimLP.Proofs.Solver.Insertion
import LowDimLP.Proofs.Solver.Descent
import LowDimLP.Proofs.Solver.Recession
import LowDimLP.Proofs.Solver.Candidate
import LowDimLP.Proofs.Solver.Line
import LowDimLP.Proofs.Geometry.Meet
import LowDimLP.Proofs.Solver.Soundness
import LowDimLP.Proofs.Solver.Correctness
import LowDimLP.Proofs.Solver.Boundedness
import LowDimLP.Proofs.Solver.Boundary
import LowDimLP.Proofs.Tolerance.Small
import LowDimLP.Proofs.Tolerance.Steady
import LowDimLP.Proofs.Solver.Failure
import LowDimLP.Proofs.Tolerance.Kind
import LowDimLP.Proofs.Tolerance.Line
import LowDimLP.Proofs.Geometry.Stretch
import LowDimLP.Proofs.Geometry.Frames
import LowDimLP.Proofs.Geometry.Parallel
import LowDimLP.Proofs.Geometry.LinearSystem
import LowDimLP.Proofs.Tolerance.Slack
import LowDimLP.Proofs.Tolerance.Planar
import LowDimLP.Proofs.Tolerance.Verdict
import LowDimLP.Proofs.Checked.Geometry
import LowDimLP.Proofs.Checked.Vertices
import LowDimLP.Proofs.Checked.Run
import LowDimLP.Proofs.Checked.Level
import LowDimLP.Proofs.Checked.Agreement
import LowDimLP.Proofs.Checked.Safety
import LowDimLP.Proofs.Json.Numbers
import LowDimLP.Proofs.Json.Strings
import LowDimLP.Proofs.RandomProblem.Draw
import LowDimLP.Proofs.RandomProblem.Solvable
import LowDimLP.Proofs.AlgebraicReals
import LowDimLP.Proofs.CommandLine.Publishing
import LowDimLP.Proofs.CommandLine.Reading
import LowDimLP.Proofs.CommandLine.Reproducible
import LowDimLP.Proofs.Solver.Scaling
import LowDimLP.Proofs.Solver.ClosedForm
import LowDimLP.Proofs.Solver.Shuffle
import LowDimLP.Proofs.Random.ReplayToken
import LowDimLP.Proofs.Solver.Building
import LowDimLP.Proofs.ProblemFile.Validation
import LowDimLP.Proofs.ProblemFile.Documents
import LowDimLP.Proofs.ProblemFile.Tables
import LowDimLP.Proofs.CommandLine.Effects
import LowDimLP.Proofs.Choices
import LowDimLP.Proofs.Checked.Combinations
import LowDimLP.Proofs.Solver.Asked
import LowDimLP.Proofs.Geometry.Constructions
import LowDimLP.Proofs.Solver.Constructed
import LowDimLP.Proofs.Solver.Held
import LowDimLP.Proofs.Solver.OneRun
