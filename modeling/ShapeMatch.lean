import ShapeMatch.Describe
import ShapeMatch.Main
import ShapeMatch.Proofs.Object.Arrangement
import ShapeMatch.Proofs.Object.Congruence
import ShapeMatch.Proofs.Object.Course
import ShapeMatch.Proofs.Object.Ownership
import ShapeMatch.Proofs.Object.Renaming
import ShapeMatch.Proofs.Operator
import ShapeMatch.Proofs.Schema.Arrangement
import ShapeMatch.Proofs.Schema.Congruence
import ShapeMatch.Proofs.Schema.Identity
import ShapeMatch.Proofs.Schema.OperatorFree
import ShapeMatch.Proofs.Schema.Joining
import ShapeMatch.Proofs.Schema.Relaxation
import ShapeMatch.Proofs.Schema.Reordering
import ShapeMatch.Proofs.Schema.Verdict
import ShapeMatch.Text.Lines
import ShapeMatch.Proofs.Assignment.Leftover
import ShapeMatch.Proofs.Object.Leftover
import ShapeMatch.Proofs.Yaml.Obstacle
import ShapeMatch.Proofs.Yaml.Spelling
import ShapeMatch.Proofs.Check
import ShapeMatch.Proofs.Object.Requirement
import ShapeMatch.Proofs.Object.Verdict
import ShapeMatch.Proofs.Value.Inclusion
import ShapeMatch.Proofs.Value.Numeric
import ShapeMatch.Proofs.Object.Discrepancy
import ShapeMatch.Proofs.Report
import ShapeMatch.Proofs.Schema.Naming
import ShapeMatch.Proofs.Yaml.Key
import ShapeMatch.Proofs.Object.Ledger
