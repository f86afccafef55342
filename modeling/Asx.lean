import Asx.ForStd.OrdMap
import Asx.ForStd.Str
import Asx.ForStd.Bytes
import Asx.ForStd.Except
import Asx.ForStd.ExceptT
import Asx.ForStd.Trim
import Asx.ForStd.List
import Asx.ForStd.Interact
import Asx.Xml.Dom
import Asx.Xml.WellFormed
import Asx.Xml.Nodes
import Asx.Xml.Parse
import Asx.Xml.RoundTrip
import Asx.Xml.Markup
import Asx.Xml.Infoset
import Asx.Native.C14n
import Asx.Native.Core
import Asx.Native.Alg
import Asx.Native.References
import Asx.Native.Time
import Asx.Native.SignatureParse
import Asx.Native.SignatureMaterial
import Asx.Native.Verify
import Asx.Native.As4Parser
import Asx.Native.Verifier
import Asx.Spec.C14nRender
import Asx.Spec.C14nContext
import Asx.Spec.C14nTree
import Asx.Spec.C14nScope
import Asx.Spec.C14nFaithful
import Asx.Spec.C14nDocument
import Asx.Spec.C14nReparse
import Asx.Spec.ReferenceIndex
import Asx.Spec.Verification
import Asx.Spec.Wrapping
import Asx.Spec.Inbound
import Asx.Spec.PayloadIntegrity
import Asx.Native.XmlParse
import Asx.Native.VerifyEnveloped
import Asx.Native.Bdxl
import Asx.Native.Smp
import Asx.Spec.SmpCoverage
import Asx.Spec.ReceiptCheck
import Asx.Native.Mime
import Asx.Native.XmlEnc
import Asx.Native.Decrypt
import Asx.Native.Payload
import Asx.Native.Receive
import Asx.Native.Receipt
import Asx.Native.Dedup
import Asx.Native.Inbound
import Asx.Spec.DedupHistory
import Asx.Spec.ClaimProtocol
import Asx.Native.X509
import Asx.Spec.SingleSigner
import Asx.Spec.ReceiptScope
import Asx.Spec.SecurityHeader
import Asx.Xml.LineEnds
import Asx.Xml.Tags
import Asx.Spec.Prescan
import Asx.Spec.DecryptionUniform
import Asx.Spec.EncryptionEnvelope
import Asx.Native.Crl
import Asx.Native.Revocation
import Asx.Native.Mdn
import Asx.Spec.MdnVerdict
import Asx.ForStd.Run
import Asx.Spec.RevocationSteps
import Asx.Spec.RevocationMemo
import Asx.Native.RevocationPath
import Asx.Spec.DistrustRule
import Asx.Spec.NoRollback
import Asx.Native.Send
import Asx.Native.TwoPass
import Asx.Native.MimePackaging
import Asx.Spec.SendOutcome
import Asx.Spec.TwoPass
import Asx.ForStd.Ascii
import Asx.ForStd.Lossy
import Asx.ForStd.Base64
import Asx.Native.As2Entity
import Asx.Spec.MediaType
import Asx.Spec.MimeLines
import Asx.Spec.MimeRoundTrip
import Asx.Spec.As2Mic
import Asx.ForStd.Calls
import Asx.Native.Cms
import Asx.Native.As2Inbound
import Asx.Spec.As2Delivery
import Asx.Spec.As2Refusal
import Asx.Native.AsyncMdn
import Asx.Spec.AsyncMdn
import Asx.Native.XmlOut
import Asx.Spec.XmlOutTree
import Asx.Spec.XmlOutCanonical
import Asx.Native.Sbdh
import Asx.Native.SignedInfo
import Asx.Native.SoapBuilder
import Asx.Native.DraftSend
import Asx.Spec.DraftReproducible
import Asx.ForStd.Octets
import Asx.Spec.ReferenceParsing
import Asx.Spec.CrlLookup
import Asx.Native.Peppol
import Asx.Spec.SmpUrls
import Asx.ForStd.Least
import Asx.Spec.BdxlSelection
import Asx.ForStd.IpAddr
import Asx.Native.Egress
import Asx.Spec.EgressFilter
import Asx.Native.Authorizer
import Asx.Spec.SenderIdentity
import Asx.Spec.EnvelopedVerdict
import Asx.Spec.MimeFraming
import Asx.Native.MdnReport
import Asx.Spec.MdnRoundTrip
import Asx.ForStd.Der
import Asx.ForStd.Slice
import Asx.Native.PkiPath
import Asx.Spec.PkiPath
import Asx.ForStd.Gregorian
import Asx.Native.Calendar
import Asx.Spec.Calendar
import Asx.Spec.Rfc3339
import Asx.Spec.StoredTime
import Asx.Spec.ContentIds
import Asx.Spec.MediaTypeGrammar
import Asx.Native.Compression
import Asx.Spec.Compression
import Asx.Native.As2Send
import Asx.Spec.As2Identifiers
import Asx.Native.Ecdsa
import Asx.Spec.Ecdsa
import Asx.ForStd.Bits
import Asx.ForStd.Hex
import Asx.Spec.Base32
import Asx.Spec.TextLines
import Asx.Spec.ConcatKdf
import Asx.Spec.DedupKeys
import Asx.Spec.C14nInherited
import Asx.Spec.C14nOnto
import Asx.Native.Signals
import Asx.Spec.XmlOutPieces
import Asx.Xml.Named
import Asx.Spec.SignalFrame
import Asx.Spec.SignalRoundTrip
import Asx.Spec.SignalErrors
import Asx.ForStd.Lru
import Asx.Native.RevocationCache
import Asx.Spec.ReceiptExchange
import Asx.Spec.RevocationCache
import Asx.Spec.XmlOutSlots
