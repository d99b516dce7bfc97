import ConceptualGraph.Main
import ConceptualGraph.Proofs.Copy.Translation
import ConceptualGraph.Proofs.Reading.Scope
import ConceptualGraph.Proofs.Reading.Reached
import ConceptualGraph.Proofs.Reading.Complete
import ConceptualGraph.Proofs.Writing.Census
import ConceptualGraph.Proofs.Label.Context
import ConceptualGraph.Proofs.Label.Maps
import ConceptualGraph.Proofs.Label.Rebinding
import ConceptualGraph.Proofs.Copy.Regenerated
import ConceptualGraph.Proofs.Lattice.Calls
import ConceptualGraph.Proofs.Stable.NormalForm
import ConceptualGraph.Proofs.Reading.Valence
import ConceptualGraph.Proofs.Reading.Anchored
import ConceptualGraph.Proofs.Reading.Composed
import ConceptualGraph.Proofs.Marker.Maps
import ConceptualGraph.Proofs.Lattice.Realized
import ConceptualGraph.Proofs.Reading.Mutual
import ConceptualGraph.Proofs.Marker.Permanent
import ConceptualGraph.Proofs.Lattice.Effect
import ConceptualGraph.Proofs.Marker.Minted
import ConceptualGraph.Proofs.Reading.Resolved
import ConceptualGraph.Proofs.Reading.Defined
import ConceptualGraph.Proofs.Reversal.Mirror
import ConceptualGraph.Proofs.Spread.Fan
import ConceptualGraph.Proofs.Token.Tiling
import ConceptualGraph.Proofs.Writing.Literal
import ConceptualGraph.Proofs.Writing.Labelled
import ConceptualGraph.Proofs.Lattice.Search
import ConceptualGraph.Proofs.Lattice.Indexed
import ConceptualGraph.Proofs.Label.Fresh
import ConceptualGraph.Proofs.Token.Integer
import ConceptualGraph.Proofs.Reading.Alternatives
import ConceptualGraph.Proofs.Writing.Exact
