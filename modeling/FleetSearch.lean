import FleetSearch.Main
import FleetSearch.Proofs.Compiled
import FleetSearch.Proofs.Document
import FleetSearch.Proofs.Restriction
import FleetSearch.Proofs.Meaning
import FleetSearch.Proofs.Acceptance
import FleetSearch.Proofs.Nesting
import FleetSearch.Proofs.Buckets
import FleetSearch.Proofs.Outcome
import FleetSearch.Proofs.Addressing
import FleetSearch.Proofs.Trees
import FleetSearch.Proofs.Mirror
import FleetSearch.Proofs.Operands
import FleetSearch.Proofs.Verdicts
import FleetSearch.Proofs.Values
import FleetSearch.Proofs.Forms
import FleetSearch.Proofs.Settling
import FleetSearch.Proofs.Dots
import FleetSearch.Proofs.Naming
import FleetSearch.Proofs.Blame
import FleetSearch.Proofs.Paths
import FleetSearch.Proofs.Reports
import FleetSearch.Proofs.Pages
import FleetSearch.Proofs.Shapes
import FleetSearch.Proofs.Mismatches
import FleetSearch.Proofs.Wording
import FleetSearch.Proofs.Recording
import FleetSearch.Proofs.BucketTrees
import FleetSearch.Proofs.FlatFields
import FleetSearch.Proofs.DottedFields
import FleetSearch.Proofs.History
