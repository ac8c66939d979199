import Hypertext.Main
import Hypertext.Scalar
import Hypertext.Session.Run
import Hypertext.Proofs.Rendering.Unfolding
import Hypertext.Proofs.Builder.Parts
import Hypertext.Proofs.Rendering.Endings
import Hypertext.Proofs.Session.Returns
import Hypertext.Proofs.Builder.Made
import Hypertext.Proofs.Session.Actions
import Hypertext.Proofs.Session.Made
import Hypertext.Proofs.Nesting.Scan
import Hypertext.Proofs.Nesting.Pairs
import Hypertext.Proofs.Nesting.Builders
import Hypertext.Proofs.Nesting.Held
import Hypertext.Proofs.Nesting.Rendering
import Hypertext.Proofs.Reading.Attributes
import Hypertext.Proofs.Reading.Markup
import Hypertext.Proofs.Texts.Erase
import Hypertext.Proofs.Texts.Plain
import Hypertext.Proofs.Texts.Stores
import Hypertext.Proofs.Texts.Calls
import Hypertext.Proofs.Texts.Documents
import Hypertext.Proofs.Texts.Sessions
import Hypertext.Proofs.Texts.Runs
import Hypertext.Proofs.Texts.Markup
import Hypertext.Proofs.Builder.Slots
import Hypertext.Proofs.Slots.Search
import Hypertext.Proofs.Slots.Acyclic
import Hypertext.Proofs.Slots.Scoped
import Hypertext.Proofs.Session.Changes
import Hypertext.Proofs.Session.Sound
import Hypertext.Proofs.Session.Cycles
import Hypertext.Proofs.Rendering.Frames
import Hypertext.Proofs.RawText.Breaking
import Hypertext.Proofs.RawText.Bodies
import Hypertext.Proofs.Nesting.Scopes
import Hypertext.Proofs.Nesting.Sessions
import Hypertext.Proofs.Reading.Decoding
import Hypertext.Proofs.Names.Builders
import Hypertext.Proofs.Session.Refusals
import Hypertext.Proofs.Names.Sessions
import Hypertext.Proofs.Session.Edits
import Hypertext.Proofs.Session.Guards
import Hypertext.Proofs.Lives.Events
import Hypertext.Proofs.Lives.Sessions
import Hypertext.Proofs.Lives.Pending
import Hypertext.Proofs.Attributes.Entries
import Hypertext.Proofs.Document.Settings
import Hypertext.Proofs.Document.Written
import Hypertext.Proofs.Document.Rendering
import Hypertext.Proofs.CommandLine.Output
import Hypertext.Proofs.CommandLine.Failures
import Hypertext.Proofs.Slots.Searching
import Hypertext.Proofs.Session.Every
import Hypertext.Proofs.Names.Embedding
import Hypertext.Proofs.Comments.Ends
import Hypertext.Proofs.Document.Classes
import Hypertext.Proofs.Rendering.Repeats
import Hypertext.Proofs.Rendering.Summaries
import Hypertext.Proofs.Names.Handles
import Hypertext.Proofs.Fillings.Contents
import Hypertext.Proofs.Fillings.Calls
import Hypertext.Proofs.Fillings.Sessions
import Hypertext.Proofs.RawText.Enclosing
import Hypertext.Proofs.Reading.Scan
import Hypertext.Proofs.Lives.Exchange
import Hypertext.Escape.RawBytes
import Hypertext.Proofs.RawText.Bytes
import Hypertext.Proofs.Reading.Texts
import Hypertext.Proofs.RawText.Pass
import Hypertext.Proofs.Attributes.ByName
import Hypertext.Proofs.Comments.Dashes
import Hypertext.Proofs.CommandLine.Paragraphs
import Hypertext.Proofs.Names.Merging
import Hypertext.Proofs.Toml.Laws
import Hypertext.Proofs.Document.Loading
import Hypertext.Proofs.Nesting.Openings
