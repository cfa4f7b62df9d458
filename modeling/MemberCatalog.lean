import MemberCatalog.Catalog.Basic
import MemberCatalog.Catalog.Declaration
import MemberCatalog.Catalog.SpecialMember
import MemberCatalog.Catalog.WellKnownMember
import MemberCatalog.Decode.Config
import MemberCatalog.Decode.Decoder
import MemberCatalog.Decode.Record
import MemberCatalog.Decode.Run
import MemberCatalog.Decode.Session
import MemberCatalog.Decode.TypeSig
import MemberCatalog.Encode
import MemberCatalog.Encode.Session
import MemberCatalog.Enumeration
import MemberCatalog.Error
import MemberCatalog.Event
import MemberCatalog.Layout
import MemberCatalog.Member.Basic
import MemberCatalog.Member.Display
import MemberCatalog.Member.Flags
import MemberCatalog.Member.Validity
import MemberCatalog.Reader.Basic
import MemberCatalog.Reader.Request
import MemberCatalog.Token
import MemberCatalog.TypeId.Basic
import MemberCatalog.TypeId.SpecialType
import MemberCatalog.TypeId.WellKnownType
import MemberCatalog.TypeSig.Basic
import MemberCatalog.TypeSig.Check
import MemberCatalog.TypeSig.Display
import MemberCatalog.TypeSig.Tag
import MemberCatalog.Writer.Basic
import MemberCatalog.Proofs.Reader.Span
import MemberCatalog.Proofs.Reader.Success
import MemberCatalog.Proofs.Member.Layout
import MemberCatalog.Proofs.Decode.Record
import MemberCatalog.Proofs.Decode.TypeSig
import MemberCatalog.Proofs.Decode.Run
import MemberCatalog.Proofs.Writer.Success
import MemberCatalog.Proofs.Encode
import MemberCatalog.Proofs.RoundTrip
import MemberCatalog.Proofs.Reader.Cut
import MemberCatalog.Proofs.Decode.Cursor
import MemberCatalog.Proofs.Reader.Shift
import MemberCatalog.Proofs.Decode.Failure
import MemberCatalog.Proofs.Decode.Composition
import MemberCatalog.Proofs.Decode.Decoder
import MemberCatalog.Proofs.Decode.Session
import MemberCatalog.Proofs.TypeSig.Check
import MemberCatalog.Proofs.Reader.Verdict
import MemberCatalog.Proofs.Decode.Verdict
import MemberCatalog.Proofs.Decode.Filter
import MemberCatalog.Proofs.Rejection
import MemberCatalog.Proofs.Decode.Unique
import MemberCatalog.Proofs.Decode.Nesting
import MemberCatalog.Proofs.Writer.Append
import MemberCatalog.Proofs.Encode.Session
import MemberCatalog.Proofs.Catalog.Build
import MemberCatalog.Proofs.Decode.CountGuard
import MemberCatalog.Proofs.Decode.Diagnosis
import MemberCatalog.Proofs.Member.Position
import MemberCatalog.Proofs.Reader.Damage
import MemberCatalog.Proofs.Decode.Damage
import MemberCatalog.Proofs.Member.Invariant
import MemberCatalog.Proofs.Encode.PrefixFree
import MemberCatalog.Proofs.Decode.Progress
import MemberCatalog.Proofs.Encode.Partial
import MemberCatalog.Proofs.Member.Arity
import MemberCatalog.Proofs.Catalog.Lookup
import MemberCatalog.Proofs.Trace
import MemberCatalog.Proofs.Text.Wording
import MemberCatalog.Proofs.Text.Brackets
import MemberCatalog.Proofs.Member.Display
import MemberCatalog.Proofs.Reader.Conversation
import MemberCatalog.Proofs.TypeId.Order
