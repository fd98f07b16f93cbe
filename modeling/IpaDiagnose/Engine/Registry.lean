import IpaDiagnose.Engine.Model

/-!
# The registered packs

What the correlation uses of the five packs: the health check sources
each reads, and the diagnoses its rules can emit. The rules are not
modelled here. `PackRule` says of each which causes it may name; every
other field of what it emits is left open.
-/

namespace IpaDiagnose

structure PackRule where
  ruleId : String
  /-- The values the rule gives `upstream_candidates`. -/
  upstreams : List (List String)

structure DiagnosticPack where
  packId : String
  rules : List PackRule
  healthcheckSources : List String

/-- The causes a broken replication link may name. -/
def peerUpstreams : List (List String) :=
  [["dns", "kerberos"], ["dns", "kerberos", "directory-server"]]

def allPacks : List DiagnosticPack :=
  [{ packId := "directory-server"
     rules :=
      [⟨"disk-space-exhaustion", [[]]⟩, ⟨"ownership-selinux-mismatch", [[]]⟩,
        ⟨"nss-tls-db-format", [[]]⟩, ⟨"missing-system-index", [[]]⟩,
        ⟨"ds-certificate-expiry", [[]]⟩]
     healthcheckSources :=
      ["ipahealthcheck.ds.backends", "ipahealthcheck.ds.config", "ipahealthcheck.ds.dse",
        "ipahealthcheck.ds.encryption", "ipahealthcheck.ds.nss_ssl",
        "ipahealthcheck.ds.disk_space", "ipahealthcheck.system.filesystemspace",
        "ipahealthcheck.ipa.files"] },
    { packId := "dns"
      rules :=
        [⟨"named-service-down", [[], ["directory-server"]]⟩, ⟨"forward-zone-conflict", [[]]⟩,
          ⟨"srv-autodiscovery", [[]]⟩]
      healthcheckSources := ["ipahealthcheck.ipa.idns"] },
    { packId := "kerberos"
      rules :=
        [⟨"clock-skew", [[]]⟩, ⟨"keytab-kvno-mismatch", [[]]⟩,
          ⟨"kdc-discovery-failure", [["dns"]]⟩]
      healthcheckSources :=
        ["ipahealthcheck.ipa.host", "ipahealthcheck.ipa.kdc", "ipahealthcheck.meta.services"] },
    { packId := "replication"
      rules :=
        [⟨"peer-connectivity-break", peerUpstreams⟩, ⟨"replication-conflicts", [[]]⟩,
          ⟨"stale-ruv", [[]]⟩, ⟨"topology-disconnected", peerUpstreams⟩]
      healthcheckSources := ["ipahealthcheck.ds.replication", "ipahealthcheck.ipa.topology"] },
    { packId := "certificates"
      rules :=
        [⟨"certmonger-tracking-stuck", [["replication"]]⟩, ⟨"cert-expired", [[]]⟩,
          ⟨"ra-agent-desync", [["directory-server"]]⟩,
          ⟨"renewal-master-unreachable", [["replication"]]⟩]
      healthcheckSources := ["ipahealthcheck.ipa.certs", "ipahealthcheck.dogtag.ca"] }]

/-- Sources of the pack with this id. -/
def packSources (packId : String) : List String :=
  (allPacks.filter (·.packId == packId)).flatMap DiagnosticPack.healthcheckSources

end IpaDiagnose
