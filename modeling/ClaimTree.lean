import ClaimTree.Main
import ClaimTree.Proofs.Batch.DeclaredRoot
import ClaimTree.Proofs.Batch.Outcome
import ClaimTree.Proofs.Batch.Reimport
import ClaimTree.Proofs.Command.Agreement
import ClaimTree.Proofs.Command.Frame
import ClaimTree.Proofs.Commitment.Binding
import ClaimTree.Proofs.Commitment.Doubling
import ClaimTree.Proofs.Tree.Capacity
import ClaimTree.Proofs.Tree.Position
import ClaimTree.Proofs.Files.History
import ClaimTree.Proofs.Commitment.Outcome
import ClaimTree.Proofs.Tree.Layers
import ClaimTree.Proofs.Tree.Sides
import ClaimTree.Proofs.Orientation.Canonical
import ClaimTree.Proofs.Record.Outcome
import ClaimTree.Proofs.Address.Checksum
import ClaimTree.Proofs.Tree.Reading
import ClaimTree.Proofs.Uint256.Canonical
import ClaimTree.Proofs.Order
import ClaimTree.Proofs.Text.FixedWidth
import ClaimTree.Proofs.Record.Truncated
import ClaimTree.Proofs.Batch.AnyOrder
