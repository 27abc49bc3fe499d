import UsbEthernet.Session
import UsbEthernet.Usb.Control
import UsbEthernet.Usb.Device
import UsbEthernet.Usb.Halves
import UsbEthernet.Proofs.Reassembly
import UsbEthernet.Proofs.Usb.Receiving
import UsbEthernet.Proofs.Usb.Announcement
import UsbEthernet.Proofs.Framing
import UsbEthernet.Proofs.Usb.Peer
import UsbEthernet.Proofs.InboundQueue
import UsbEthernet.Proofs.OutboundQueue
import UsbEthernet.Proofs.Loopback
import UsbEthernet.Proofs.Usb.Separation
import UsbEthernet.Proofs.Wakeup
import UsbEthernet.Proofs.Usb.Reading
import UsbEthernet.Proofs.Usb.Enumeration
import UsbEthernet.Proofs.Usb.Quiescence
import UsbEthernet.Proofs.Usb.Rounds
import UsbEthernet.Proofs.Pieces
import UsbEthernet.Proofs.Usb.Writing
import UsbEthernet.Proofs.Waiting
import UsbEthernet.Proofs.AddressGrammar
import UsbEthernet.Proofs.AddressText
import UsbEthernet.Proofs.OpenFrame
