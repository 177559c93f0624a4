import OpenBSDCiv.AcmeClient.Util
import OpenBSDCiv.Dhcpleased.Lemmas.Tracking
import OpenBSDCiv.Dvmrpd.Lemmas.RoundTrip
import OpenBSDCiv.Dvmrpd.Lemmas.Timers
import OpenBSDCiv.Dvmrpd.Mfc
import OpenBSDCiv.Eigrpd.Lemmas.Answers
import OpenBSDCiv.Eigrpd.Lemmas.Delivery
import OpenBSDCiv.Eigrpd.Lemmas.References
import OpenBSDCiv.Eigrpd.Lemmas.Sound
import OpenBSDCiv.Eigrpd.Lemmas.Store
import OpenBSDCiv.Eigrpd.Lemmas.Tlv
import OpenBSDCiv.Eigrpd.Lemmas.Topology
import OpenBSDCiv.Isakmpd.Lemmas.Confine
import OpenBSDCiv.Libutil.Lemmas.Ownership
import OpenBSDCiv.Libutil.Lemmas.Receive
import OpenBSDCiv.MsgGenerator.Lemmas.Decode
import OpenBSDCiv.MsgGenerator.Lemmas.Eom
import OpenBSDCiv.MsgGenerator.Lemmas.Types
import OpenBSDCiv.MsgGenerator.Sequence
import OpenBSDCiv.Ospfd.Exchange.Lemmas.Pending
import OpenBSDCiv.Ospfd.Kroute.Lemmas.Announce
import OpenBSDCiv.Ospfd.Kroute.Lemmas.Mirror
import OpenBSDCiv.Ospfd.Rde.Lemmas.Spf
import OpenBSDCiv.PtrChecker.Lemmas.Detect
import OpenBSDCiv.Radius.Lemmas.Msgauth
import OpenBSDCiv.Radiusd.Lemmas.Bsdauth
import OpenBSDCiv.Radiusd.Lemmas.Fixup
import OpenBSDCiv.Radiusd.Lemmas.Query
import OpenBSDCiv.Radiusd.Lemmas.Radpkt
import OpenBSDCiv.Radiusd.UserPassword
import OpenBSDCiv.Snmpd.Appl.Lemmas.Calls
import OpenBSDCiv.Snmpd.Appl.Lemmas.Dispatch
import OpenBSDCiv.Snmpd.Ber.Lemmas.RoundTrip
import OpenBSDCiv.Snmpd.Ber.Lemmas.Tiling
import OpenBSDCiv.Snmpd.TrapHandler
import OpenBSDCiv.Syslogd.Tcp
