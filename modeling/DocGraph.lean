import DocGraph.Main
import DocGraph.Node.Listing
import DocGraph.Render.PlainText
import DocGraph.Store.Reader
import DocGraph.Store.Shelf
import DocGraph.Store.Tree
import DocGraph.Proofs.Consistency
import DocGraph.Proofs.Depths
import DocGraph.Proofs.PermalinkOrder
import DocGraph.Proofs.Identity
import DocGraph.Proofs.PathText
import DocGraph.Proofs.RefIds
import DocGraph.Proofs.References
import DocGraph.Proofs.Building
import DocGraph.Proofs.Outline
import DocGraph.Proofs.Places
import DocGraph.Proofs.Walking
import DocGraph.Proofs.Coherence
import DocGraph.Proofs.Disputes
import DocGraph.Proofs.Undisputed
import DocGraph.Proofs.Entries
import DocGraph.Proofs.FileOrder
import DocGraph.Proofs.Paths
import DocGraph.Proofs.Targets
import DocGraph.Proofs.Making
import DocGraph.Proofs.Listings
import DocGraph.Proofs.Wrapping
import DocGraph.Proofs.Trials
import DocGraph.Proofs.Recording
import DocGraph.Proofs.Derivation
import DocGraph.Proofs.Spelling
import DocGraph.Proofs.Reading
import DocGraph.Proofs.Encoding
import DocGraph.Proofs.Writing
import DocGraph.Proofs.RoundTrip
import DocGraph.Proofs.Demands
import DocGraph.Proofs.Grammar
import DocGraph.Proofs.Acceptance
import DocGraph.Proofs.Completeness
import DocGraph.Proofs.Nesting
import DocGraph.Proofs.Alphabet
import DocGraph.Proofs.Directories
import DocGraph.Proofs.Casing
import DocGraph.Proofs.Components
import DocGraph.Proofs.Fragments
import DocGraph.Proofs.Loading
import DocGraph.Proofs.Retrying
import DocGraph.Proofs.Reporting
import DocGraph.Proofs.Distances
import DocGraph.Proofs.RefIdBytes
import DocGraph.Proofs.Decisions
import DocGraph.Proofs.VariableLists
import DocGraph.Proofs.LineRanges
import DocGraph.Proofs.Words
import DocGraph.Proofs.Slugs
import DocGraph.Proofs.Scopes
import DocGraph.Proofs.Refusals
import DocGraph.Proofs.Diagnoses
import DocGraph.Proofs.Attribution
import DocGraph.Proofs.Sections
import DocGraph.Proofs.Anonymity
import DocGraph.Proofs.Expansion
import DocGraph.Proofs.Bracketing
import DocGraph.Proofs.Openings
import DocGraph.Proofs.Tables
