import ComponentCatalog.ClassModel.Basic
import ComponentCatalog.ClassModel.Bean
import ComponentCatalog.ClassModel.ClassPath
import ComponentCatalog.ClassModel.Document
import ComponentCatalog.ClassModel.Hierarchy
import ComponentCatalog.ClassName
import ComponentCatalog.CommandLine.Arguments
import ComponentCatalog.CommandLine.Output
import ComponentCatalog.CommandLine.Run
import ComponentCatalog.Composition.Change
import ComponentCatalog.Composition.Layer
import ComponentCatalog.Composition.Members
import ComponentCatalog.Composition.Properties
import ComponentCatalog.Configuration.Basic
import ComponentCatalog.Configuration.Document
import ComponentCatalog.Configuration.Workspace
import ComponentCatalog.Description.Basic
import ComponentCatalog.Description.Creation
import ComponentCatalog.Description.Document
import ComponentCatalog.Description.Exposing
import ComponentCatalog.Description.Invocation
import ComponentCatalog.Description.Key
import ComponentCatalog.Description.Property
import ComponentCatalog.Failure
import ComponentCatalog.Json.Printer
import ComponentCatalog.Json.Reader
import ComponentCatalog.Json.Record
import ComponentCatalog.Json.Value
import ComponentCatalog.Layer.Document
import ComponentCatalog.Layer.Json
import ComponentCatalog.Layer.Reading
import ComponentCatalog.Layer.Rule
import ComponentCatalog.Layer.StandardRules
import ComponentCatalog.Main
import ComponentCatalog.NameMap
import ComponentCatalog.Proofs.ClassModel.MethodLookup
import ComponentCatalog.Proofs.ClassModel.Normalization
import ComponentCatalog.Proofs.ClassModel.SuperclassChain
import ComponentCatalog.Proofs.ClassModel.WalkFailure
import ComponentCatalog.Proofs.Composition.Layering
import ComponentCatalog.Proofs.Composition.MemberStep
import ComponentCatalog.Proofs.Composition.Strictness
import ComponentCatalog.Proofs.Description.Overrides
import ComponentCatalog.Proofs.Layer.LoadFailure
import ComponentCatalog.Proofs.Outcome
import ComponentCatalog.Proofs.Resolver.Caching
import ComponentCatalog.Proofs.Resolver.Request
import ComponentCatalog.Proofs.Resolver.Strictness
import ComponentCatalog.Resolver.Basic
import ComponentCatalog.Resolver.Cache
import ComponentCatalog.Resolver.Icon
import ComponentCatalog.Resolver.ParameterNames
import ComponentCatalog.Resolver.Resolution
import ComponentCatalog.Resolver.Session
import ComponentCatalog.Resource.Bundle
import ComponentCatalog.Resource.FileTree
import ComponentCatalog.Resource.Layer
import ComponentCatalog.Resource.Path
import ComponentCatalog.Text.Blank
import ComponentCatalog.Text.LetterCase
import ComponentCatalog.Text.Reader
import ComponentCatalog.Text.Split
import ComponentCatalog.Text.Utf8
import ComponentCatalog.Text.Wildcard
import ComponentCatalog.Xml.Character
import ComponentCatalog.Xml.Doctype
import ComponentCatalog.Xml.Document
import ComponentCatalog.Xml.Element
import ComponentCatalog.Xml.Encoding
import ComponentCatalog.Xml.Reference
import ComponentCatalog.Xml.Source
import ComponentCatalog.Xml.Tag
import ComponentCatalog.Xml.Token
import ComponentCatalog.Yaml.Cursor
import ComponentCatalog.Yaml.Document
import ComponentCatalog.Yaml.Draft
import ComponentCatalog.Yaml.Node
import ComponentCatalog.Yaml.PlainScalar
import ComponentCatalog.Yaml.Printer
import ComponentCatalog.Yaml.Scalar
import ComponentCatalog.Yaml.Token
import ComponentCatalog.Proofs.Layer.Nesting
import ComponentCatalog.Proofs.Layer.Handler
import ComponentCatalog.Proofs.Layer.StandardHandlers
import ComponentCatalog.Proofs.Layer.Places
import ComponentCatalog.Proofs.Layer.Concatenation
import ComponentCatalog.Proofs.Layer.Transparency
import ComponentCatalog.Proofs.Layer.FrameStack
import ComponentCatalog.Proofs.Composition.History
import ComponentCatalog.Proofs.Composition.LayerFailure
import ComponentCatalog.Proofs.Resolver.Resolution
import ComponentCatalog.Proofs.Composition.Parts
import ComponentCatalog.Proofs.Resolver.Context
import ComponentCatalog.Proofs.Xml.Verbatim
import ComponentCatalog.Proofs.Composition.ClassModel
import ComponentCatalog.Proofs.Composition.PropertyTable
import ComponentCatalog.Proofs.Resolver.Store
import ComponentCatalog.Proofs.Resolver.Parameter
import ComponentCatalog.Proofs.Resolver.Target
import ComponentCatalog.Proofs.Resolver.Attribution
import ComponentCatalog.Proofs.Configuration.Validity
import ComponentCatalog.Proofs.Configuration.Keeping
import ComponentCatalog.Proofs.Composition.MethodOperations
import ComponentCatalog.Proofs.Description.Recipients
import ComponentCatalog.Proofs.Composition.ClassProperties
import ComponentCatalog.Proofs.Text.Wildcard
import ComponentCatalog.Proofs.Resource.Containment
import ComponentCatalog.Proofs.ClassModel.BeanIntrospection
import ComponentCatalog.Proofs.Description.KeyPath
import ComponentCatalog.Proofs.Resolver.ContextPath
import ComponentCatalog.Proofs.Resolver.IconSearch
import ComponentCatalog.Proofs.Configuration.RoundTrip
import ComponentCatalog.Proofs.Composition.ConstructorNotes
import ComponentCatalog.Proofs.Resolver.DefaultCreation
import ComponentCatalog.Proofs.Layer.EditorParameters
import ComponentCatalog.Proofs.Layer.MethodProperties
import ComponentCatalog.Proofs.Composition.MethodProperties
import ComponentCatalog.Proofs.Layer.PathPattern
import ComponentCatalog.Proofs.Layer.CallOrder
