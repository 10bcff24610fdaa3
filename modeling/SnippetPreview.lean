import SnippetPreview.Cli.Arguments
import SnippetPreview.Cli.Command
import SnippetPreview.Cli.Run
import SnippetPreview.Cli.Samples
import SnippetPreview.Config.Basic
import SnippetPreview.Document.Head
import SnippetPreview.Document.Script
import SnippetPreview.Document.Shell
import SnippetPreview.Files.Path
import SnippetPreview.Files.Tree
import SnippetPreview.Framework.Kind
import SnippetPreview.Framework.Signals
import SnippetPreview.Framework.Verdict
import SnippetPreview.Framework.Wire
import SnippetPreview.Json.Basic
import SnippetPreview.Json.Decode
import SnippetPreview.Json.Double
import SnippetPreview.Json.Lexical
import SnippetPreview.Json.Numeral
import SnippetPreview.Json.Parser
import SnippetPreview.Live.ClientScript
import SnippetPreview.Live.HostPage
import SnippetPreview.Live.Hub
import SnippetPreview.Live.Message
import SnippetPreview.Live.Session
import SnippetPreview.Main
import SnippetPreview.Markup.Sections
import SnippetPreview.Pattern.Basic
import SnippetPreview.Pattern.Search
import SnippetPreview.Pattern.Sweep
import SnippetPreview.Proofs.Document.Completion
import SnippetPreview.Proofs.Document.Doctypes
import SnippetPreview.Proofs.Document.Escaping
import SnippetPreview.Proofs.Document.Finished
import SnippetPreview.Proofs.Document.Nesting
import SnippetPreview.Proofs.Document.Reader
import SnippetPreview.Proofs.Document.Rewriting
import SnippetPreview.Proofs.Document.Scripts
import SnippetPreview.Proofs.Document.Seams
import SnippetPreview.Proofs.Document.Tags
import SnippetPreview.Proofs.Files.Attempt
import SnippetPreview.Proofs.Files.Disk
import SnippetPreview.Proofs.Files.Look
import SnippetPreview.Proofs.Files.Path
import SnippetPreview.Proofs.Files.Tree
import SnippetPreview.Proofs.Files.Walk
import SnippetPreview.Proofs.Framework.Monotone
import SnippetPreview.Proofs.Framework.Wire
import SnippetPreview.Proofs.Json.Layouts
import SnippetPreview.Proofs.Json.Objects
import SnippetPreview.Proofs.Json.Records
import SnippetPreview.Proofs.Json.Strings
import SnippetPreview.Proofs.Live.HostPage
import SnippetPreview.Proofs.Live.Loading
import SnippetPreview.Proofs.Live.Messages
import SnippetPreview.Proofs.Live.Queue
import SnippetPreview.Proofs.Live.Room
import SnippetPreview.Proofs.Markup.Elements
import SnippetPreview.Proofs.Markup.Entities
import SnippetPreview.Proofs.Markup.Forms
import SnippetPreview.Proofs.Markup.Sections
import SnippetPreview.Proofs.Pattern.Blind
import SnippetPreview.Proofs.Pattern.Context
import SnippetPreview.Proofs.Pattern.Finds
import SnippetPreview.Proofs.Pattern.First
import SnippetPreview.Proofs.Pattern.Groups
import SnippetPreview.Proofs.Pattern.Images
import SnippetPreview.Proofs.Pattern.Leads
import SnippetPreview.Proofs.Pattern.Reads
import SnippetPreview.Proofs.Pattern.Remains
import SnippetPreview.Proofs.Pattern.Replaces
import SnippetPreview.Proofs.Pattern.Stretches
import SnippetPreview.Proofs.Pattern.Twins
import SnippetPreview.Proofs.Publish.Commit
import SnippetPreview.Proofs.Publish.Contents
import SnippetPreview.Proofs.Publish.Directory
import SnippetPreview.Proofs.Publish.Discovery
import SnippetPreview.Proofs.Publish.Links
import SnippetPreview.Proofs.Publish.ObjectMap
import SnippetPreview.Proofs.Publish.Objects
import SnippetPreview.Proofs.Publish.Record
import SnippetPreview.Proofs.Publish.Republish
import SnippetPreview.Proofs.Publish.Search
import SnippetPreview.Proofs.Publish.SlugSearch
import SnippetPreview.Proofs.Publish.Slugs
import SnippetPreview.Proofs.Renderer.Complete
import SnippetPreview.Proofs.Renderer.Components
import SnippetPreview.Proofs.Renderer.Controllers
import SnippetPreview.Proofs.Renderer.Directives
import SnippetPreview.Proofs.Renderer.Doctypes
import SnippetPreview.Proofs.Renderer.Expressions
import SnippetPreview.Proofs.Renderer.FirstDoctype
import SnippetPreview.Proofs.Renderer.LoadOrder
import SnippetPreview.Proofs.Renderer.LooseVue
import SnippetPreview.Proofs.Renderer.OneDoctype
import SnippetPreview.Proofs.Renderer.Projection
import SnippetPreview.Proofs.Renderer.ReactClassic
import SnippetPreview.Proofs.Renderer.ReactExports
import SnippetPreview.Proofs.Renderer.ReactImports
import SnippetPreview.Proofs.Renderer.ReactMarkup
import SnippetPreview.Proofs.Renderer.ReactNames
import SnippetPreview.Proofs.Renderer.ReactPage
import SnippetPreview.Proofs.Renderer.ReactReads
import SnippetPreview.Proofs.Renderer.Registration
import SnippetPreview.Proofs.Renderer.Repetitions
import SnippetPreview.Proofs.Renderer.Statements
import SnippetPreview.Proofs.Renderer.Templates
import SnippetPreview.Proofs.Renderer.VueNames
import SnippetPreview.Proofs.Script.Annotations
import SnippetPreview.Proofs.Script.Bodies
import SnippetPreview.Proofs.Script.Brackets
import SnippetPreview.Proofs.Script.Doctypes
import SnippetPreview.Proofs.Script.FieldLines
import SnippetPreview.Proofs.Script.Ghosts
import SnippetPreview.Proofs.Script.GlobalNames
import SnippetPreview.Proofs.Script.GlobalReads
import SnippetPreview.Proofs.Script.Globalizing
import SnippetPreview.Proofs.Script.ImportHead
import SnippetPreview.Proofs.Script.ImportLines
import SnippetPreview.Proofs.Script.ImportReadings
import SnippetPreview.Proofs.Script.Insides
import SnippetPreview.Proofs.Script.KeptBindings
import SnippetPreview.Proofs.Script.LeftImports
import SnippetPreview.Proofs.Script.Legible
import SnippetPreview.Proofs.Script.Lines
import SnippetPreview.Proofs.Script.Literals
import SnippetPreview.Proofs.Script.Masking
import SnippetPreview.Proofs.Script.Names
import SnippetPreview.Proofs.Script.Pairs
import SnippetPreview.Proofs.Script.Parts
import SnippetPreview.Proofs.Script.Printing
import SnippetPreview.Proofs.Script.Rereading
import SnippetPreview.Proofs.Script.Sites
import SnippetPreview.Proofs.Script.Slices
import SnippetPreview.Proofs.Script.Specifiers
import SnippetPreview.Proofs.Text.Classes
import SnippetPreview.Proofs.Text.Separators
import SnippetPreview.Proofs.Watch.Bursts
import SnippetPreview.Publish.Discover
import SnippetPreview.Publish.Page
import SnippetPreview.Publish.Run
import SnippetPreview.Publish.Slug
import SnippetPreview.Publish.Storage
import SnippetPreview.Publish.Stylesheet
import SnippetPreview.Renderer.Alpine
import SnippetPreview.Renderer.Angular
import SnippetPreview.Renderer.Basic
import SnippetPreview.Renderer.Plain
import SnippetPreview.Renderer.React
import SnippetPreview.Renderer.Registry
import SnippetPreview.Renderer.Vue
import SnippetPreview.Script.Brackets
import SnippetPreview.Script.Imports
import SnippetPreview.Script.Lexer
import SnippetPreview.Script.Mask
import SnippetPreview.Script.Members
import SnippetPreview.Server.Address
import SnippetPreview.Server.Http
import SnippetPreview.Server.MediaType.Application
import SnippetPreview.Server.MediaType.Extension
import SnippetPreview.Server.MediaType.Medium
import SnippetPreview.Server.MediaType.Parameters
import SnippetPreview.Server.MediaType.Vendor
import SnippetPreview.Server.Routes
import SnippetPreview.Server.StaticFiles
import SnippetPreview.Server.Target
import SnippetPreview.Text.Basic
import SnippetPreview.Text.Blank
import SnippetPreview.Text.Fold
import SnippetPreview.Text.Word
import SnippetPreview.Toml.Basic
import SnippetPreview.Toml.Lexical
import SnippetPreview.Toml.Parser
import SnippetPreview.Watch.Batch
import SnippetPreview.Watch.Event
