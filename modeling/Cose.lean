import Cose.Key.Set
import Cose.Proofs.Agreement.BothSides
import Cose.Proofs.Authentication
import Cose.Proofs.Base64Url
import Cose.Proofs.Cbor.Places
import Cose.Proofs.Cbor.PrefixFree
import Cose.Proofs.Cbor.Shortest
import Cose.Proofs.Encryption
import Cose.Proofs.Encryption.Nonce
import Cose.Proofs.Header.Order
import Cose.Proofs.Key.Accepted
import Cose.Proofs.Key.Derivation
import Cose.Proofs.Key.FixedPoint
import Cose.Proofs.Key.LifeCycle
import Cose.Proofs.Key.Operations
import Cose.Proofs.Key.Registration
import Cose.Proofs.Key.Selected
import Cose.Proofs.Key.Sets
import Cose.Proofs.Key.Shielded
import Cose.Proofs.KeyWrapping
import Cose.Proofs.Signature.Shielding
import Cose.Proofs.Signature.ToBeSigned
import Cose.Proofs.Signature.Wire
import Cose.Proofs.Signing.Refusal
