import Parley.Agent.Open
import Parley.Agent.Request
import Parley.Agent.Step
import Parley.Agent.Turn
import Parley.Assistant
import Parley.Chat.Content
import Parley.Chat.Event
import Parley.Chat.Message
import Parley.Chat.ToolCall
import Parley.Entries
import Parley.Floating.Binary
import Parley.Floating.Double
import Parley.Floating.Shortest
import Parley.Floating.Single
import Parley.Json.Basic
import Parley.Json.Numeral
import Parley.Json.Parser
import Parley.Json.Printer
import Parley.Json.Record
import Parley.Net.Base64
import Parley.Net.Exchange
import Parley.Net.Host
import Parley.Net.Percent
import Parley.Net.Punycode
import Parley.Net.Url
import Parley.Prompt.System
import Parley.Prompt.Template.Basic
import Parley.Prompt.Template.Parser
import Parley.Prompt.Template.Token
import Parley.Proofs.Agent.Asking
import Parley.Proofs.Agent.Confirmation
import Parley.Proofs.Agent.Conversation
import Parley.Proofs.Agent.Dispatch
import Parley.Proofs.Agent.Handshake
import Parley.Proofs.Agent.Hearing
import Parley.Proofs.Agent.Limit
import Parley.Proofs.Agent.Locality
import Parley.Proofs.Agent.Log
import Parley.Proofs.Agent.Modes
import Parley.Proofs.Agent.PairedTurn
import Parley.Proofs.Agent.Pairing
import Parley.Proofs.Agent.Place
import Parley.Proofs.Agent.Prompt
import Parley.Proofs.Agent.Protocol
import Parley.Proofs.Agent.Record
import Parley.Proofs.Agent.Run
import Parley.Proofs.Agent.Sample
import Parley.Proofs.Agent.State
import Parley.Proofs.Agent.Waiting
import Parley.Proofs.Chat.Arguments
import Parley.Proofs.Chat.Building
import Parley.Proofs.Chat.CallIds
import Parley.Proofs.Chat.Frames
import Parley.Proofs.Chat.Spelling
import Parley.Proofs.Chat.Substitutes
import Parley.Proofs.Chat.Written
import Parley.Proofs.Json.Members
import Parley.Proofs.Json.Numbers
import Parley.Proofs.Json.Range
import Parley.Proofs.Json.RoundTrip
import Parley.Proofs.Json.Texts
import Parley.Proofs.Outcomes
import Parley.Proofs.Prompt.Rendering
import Parley.Proofs.Prompt.System
import Parley.Proofs.Prompt.Written
import Parley.Proofs.Provider.Addresses
import Parley.Proofs.Provider.Counts
import Parley.Proofs.Provider.Deltas
import Parley.Proofs.Provider.Positions
import Parley.Proofs.Provider.Selection
import Parley.Proofs.Text.Bytes
import Parley.Proofs.Text.Pieces
import Parley.Proofs.Tool.Advertised
import Parley.Proofs.Wire.Adjacency
import Parley.Proofs.Wire.Agreement.Anthropic
import Parley.Proofs.Wire.Agreement.Ollama
import Parley.Proofs.Wire.Agreement.OpenAi
import Parley.Proofs.Wire.Alternation
import Parley.Proofs.Wire.Correspondence
import Parley.Proofs.Wire.Counts
import Parley.Proofs.Wire.Deltas
import Parley.Proofs.Wire.Deltas.Anthropic
import Parley.Proofs.Wire.Dialogue
import Parley.Proofs.Wire.Echo
import Parley.Proofs.Wire.Echo.Reply
import Parley.Proofs.Wire.Ending
import Parley.Proofs.Wire.Fragments
import Parley.Proofs.Wire.Indexed
import Parley.Proofs.Wire.Lines
import Parley.Proofs.Wire.Portions
import Parley.Proofs.Wire.Positions
import Parley.Proofs.Wire.Stream
import Parley.Proofs.Wire.Turns
import Parley.Proofs.Workspace.Confinement
import Parley.Proofs.Workspace.Effects
import Parley.Proofs.Workspace.Orderly
import Parley.Proofs.Workspace.Paths
import Parley.Proofs.Workspace.Reports
import Parley.Proofs.Workspace.Routes
import Parley.Proofs.Workspace.Search
import Parley.Proofs.Workspace.Standing
import Parley.Proofs.Workspace.View
import Parley.Proofs.Workspace.Walk
import Parley.Provider.Ability
import Parley.Provider.Endpoint
import Parley.Provider.Model
import Parley.Provider.Remote
import Parley.Provider.Store
import Parley.Service.Basic
import Parley.Service.MediaType
import Parley.Service.Response
import Parley.Settings.Address
import Parley.Settings.Basic
import Parley.Settings.Reader
import Parley.Settings.Tree
import Parley.Settings.Variable
import Parley.Text.Blank
import Parley.Text.Casing
import Parley.Text.Casing.Table
import Parley.Text.Digits
import Parley.Text.Pieces
import Parley.Text.Utf8
import Parley.Toml.Draft
import Parley.Toml.Number
import Parley.Toml.Parser
import Parley.Toml.Quoted
import Parley.Toml.Value
import Parley.Tool.Builtin
import Parley.Tool.Name
import Parley.Tool.Output
import Parley.Tool.Registry
import Parley.Web.Fetch
import Parley.Web.Status
import Parley.Wire.Anthropic.Reply
import Parley.Wire.Anthropic.Request
import Parley.Wire.Anthropic.Stream
import Parley.Wire.Assembly
import Parley.Wire.Body
import Parley.Wire.Completion
import Parley.Wire.Dialogue
import Parley.Wire.Error
import Parley.Wire.Function
import Parley.Wire.Gemini.Reply
import Parley.Wire.Gemini.Request
import Parley.Wire.Ollama.Reply
import Parley.Wire.Ollama.Request
import Parley.Wire.Ollama.Stream
import Parley.Wire.OpenAi.Reply
import Parley.Wire.OpenAi.Request
import Parley.Wire.OpenAi.Stream
import Parley.Word
import Parley.Workspace.Disk
import Parley.Workspace.Location
import Parley.Workspace.Search
import Parley.Workspace.Store
import Parley.Workspace.Tools
import Parley.Workspace.Tree
import Parley.Proofs.Text.Cuts
import Parley.Proofs.Wire.Images
import Parley.Proofs.Settings.Hints
