import GoFdo.Text.Bytes
import GoFdo.Text.Utf8
import GoFdo.Text.Regexp
import GoFdo.Identifier.Wildcard
import GoFdo.Identifier.Matchers
import GoFdo.Identifier.Semantics
import GoFdo.Control.Except
import GoFdo.X509.Certificate
import GoFdo.Delegate.Generate
import GoFdo.Delegate.Chain
import GoFdo.Delegate.Soundness
import GoFdo.Delegate.Completeness
import GoFdo.Fsim.Payload
import GoFdo.Fsim.PayloadOwner
import GoFdo.Fsim.Lockstep
import GoFdo.Cbor.Codec
import GoFdo.Cbor.Decode
import GoFdo.Cose.Header
import GoFdo.Cose.Parse
import GoFdo.Protocol.Hash
import GoFdo.Protocol.Capability
import GoFdo.Fsim.Ssh
import GoFdo.Fsim.SshOwner
import GoFdo.Fsim.SshLockstep
