import RichDoc.Build.Script
import RichDoc.Json.Identical
import RichDoc.Main
import RichDoc.Markup.Parser
import RichDoc.Proofs.Build.Rendering
import RichDoc.Proofs.Serializer.Grouping
import RichDoc.Proofs.Serializer.Losses
import RichDoc.Proofs.Serializer.Chains
import RichDoc.Proofs.Serializer.Timeline
import RichDoc.Proofs.Build.Trace
import RichDoc.Proofs.Template.Flagged
import RichDoc.Proofs.Template.Visits
import RichDoc.Proofs.Html.Markup
import RichDoc.Proofs.Html.RoundTrip
import RichDoc.Proofs.Dom.WellFormed
import RichDoc.Proofs.Dom.Links
import RichDoc.Proofs.Dom.Editing
import RichDoc.Proofs.Dom.Runs
import RichDoc.Proofs.Dom.Outline
import RichDoc.Proofs.Dom.Moving
import RichDoc.Proofs.Dom.Insertion
import RichDoc.Proofs.Dom.Walking
import RichDoc.Proofs.Build.Filling
import RichDoc.Proofs.Template.Language
import RichDoc.Proofs.Template.Denotation
import RichDoc.Proofs.Doc.Loading
import RichDoc.Proofs.Template.Wrapping
import RichDoc.Proofs.Serializer.Total
import RichDoc.Proofs.Serializer.Content
import RichDoc.Proofs.BasicSchema.Vocabulary
import RichDoc.Proofs.BasicSchema.Output
import RichDoc.Proofs.Build.Simulation
import RichDoc.Proofs.Serializer.Lockstep
import RichDoc.Proofs.Template.Failures
import RichDoc.Proofs.Build.Renumbering
import RichDoc.Proofs.Build.Embodiment
import RichDoc.Proofs.Build.Copies
import RichDoc.Proofs.Dom.Above
import RichDoc.Proofs.Serializer.Policies
import RichDoc.Proofs.Serializer.Shared
import RichDoc.Proofs.Serializer.Neighbours
import RichDoc.Proofs.Serializer.Single
import RichDoc.Proofs.Doc.Equality
import RichDoc.Proofs.Serializer.Reached
import RichDoc.Proofs.Serializer.Invisible
import RichDoc.Proofs.Template.Recursion
import RichDoc.Proofs.Build.Lawful
import RichDoc.Proofs.Build.Discipline
import RichDoc.Proofs.Serializer.Lawful
import RichDoc.Proofs.Build.Appending
import RichDoc.Proofs.Serializer.Appending
import RichDoc.Proofs.Serializer.Replay
import RichDoc.Proofs.Template.Typed
import RichDoc.Proofs.Template.Holding
import RichDoc.Proofs.Serializer.Requests
import RichDoc.Proofs.Doc.Conformance
import RichDoc.Proofs.Doc.Declared
import RichDoc.Proofs.Doc.MarkSets
import RichDoc.Proofs.Serializer.PassThrough
import RichDoc.Proofs.Doc.Readings
import RichDoc.Proofs.Binary64.Canonical
import RichDoc.Proofs.Markup.Snippet
