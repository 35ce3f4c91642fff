import SchemaProbe.Description
import SchemaProbe.Exploration
import SchemaProbe.Loading
import SchemaProbe.Rendering
import SchemaProbe.Proofs.EventLog
import SchemaProbe.Proofs.KnownShape
import SchemaProbe.Proofs.References
import SchemaProbe.Proofs.Unfolding
import SchemaProbe.Proofs.UnfoldingLaws
import SchemaProbe.Proofs.ShapeAgreement
import SchemaProbe.Proofs.Contexts
import SchemaProbe.Proofs.Memo
import SchemaProbe.Proofs.MemoUnfolding
import SchemaProbe.Proofs.KeyOrder
import SchemaProbe.Proofs.PlainForm
import SchemaProbe.Proofs.Settling
import SchemaProbe.Proofs.Lookups
import SchemaProbe.Proofs.Probing
import SchemaProbe.Proofs.Universe
import SchemaProbe.Proofs.Describing
import SchemaProbe.Proofs.Markers
import SchemaProbe.Proofs.Wrappers
import SchemaProbe.Proofs.Tables
import SchemaProbe.Proofs.Overwriting
import SchemaProbe.Proofs.Inlining
import SchemaProbe.Proofs.Alike
import SchemaProbe.Proofs.Resolving
import SchemaProbe.Proofs.Requesting
import SchemaProbe.Proofs.ProbingAlike
import SchemaProbe.Proofs.Terminating
import SchemaProbe.Proofs.Containing
import SchemaProbe.Proofs.PlainSchema
import SchemaProbe.Proofs.SchemaWriting
import SchemaProbe.Proofs.SchemaUnfolding
import SchemaProbe.Proofs.Passes
import SchemaProbe.Proofs.KeyLoops
import SchemaProbe.Proofs.Traces
import SchemaProbe.Proofs.Surfaces
import SchemaProbe.Proofs.Lockstep
import SchemaProbe.Proofs.Foreseeing
import SchemaProbe.Proofs.Surveying
import SchemaProbe.Proofs.FieldOrder
import SchemaProbe.Proofs.Reordering
import SchemaProbe.Proofs.Components
import SchemaProbe.Proofs.SharedNames
import SchemaProbe.Proofs.RecordedTree
import SchemaProbe.Proofs.CacheCoherence
import SchemaProbe.Proofs.PropertyNames
import SchemaProbe.Proofs.LoadingAlike
import SchemaProbe.Proofs.Attributes
import SchemaProbe.Proofs.Truncating
import SchemaProbe.Proofs.JoinedWords
import SchemaProbe.Proofs.ReadingToEnd
import SchemaProbe.Proofs.GuardDiscipline
import SchemaProbe.Proofs.Styles
import SchemaProbe.Proofs.Veiling
import SchemaProbe.Proofs.Abreast
import SchemaProbe.Proofs.DescribingOptional
import SchemaProbe.Proofs.Catalogues
import SchemaProbe.Proofs.SameFields
import SchemaProbe.Proofs.OptionalSchemas
import SchemaProbe.Proofs.ComponentNames
import SchemaProbe.Proofs.DerivedNames
import SchemaProbe.Proofs.Senses
import SchemaProbe.Proofs.SettledNames
import SchemaProbe.Proofs.OverClasses
import SchemaProbe.Proofs.UnionMembers
import SchemaProbe.Proofs.Stages
import SchemaProbe.Proofs.EarlyReading
import SchemaProbe.Proofs.Answers
import SchemaProbe.Proofs.DescribingEarly
import SchemaProbe.Proofs.DeclaringEarly
import SchemaProbe.Proofs.DefinitionOrder
