import IpaDiagnose.Lib.PyStr

/-!
# Catalog of upstream checks

The release of the health check each of its checks was first seen in.
-/

namespace IpaDiagnose

def CATALOG : List (String × String) :=
  [("ipahealthcheck.dogtag.ca.DogtagCertsConfigCheck", "0.2"),
    ("ipahealthcheck.dogtag.ca.DogtagCertsConnectivityCheck", "0.2"),
    ("ipahealthcheck.ds.backends.BackendsCheck", "0.6"),
    ("ipahealthcheck.ds.config.ConfigCheck", "0.6"),
    ("ipahealthcheck.ds.disk_space.DiskSpaceCheck", "0.6"),
    ("ipahealthcheck.ds.ds_plugins.RIPluginCheck", "0.6"),
    ("ipahealthcheck.ds.dse.DSECheck", "0.6"),
    ("ipahealthcheck.ds.encryption.EncryptionCheck", "0.6"),
    ("ipahealthcheck.ds.fs_checks.FSCheck", "0.6"),
    ("ipahealthcheck.ds.nss_ssl.NssCheck", "0.6"),
    ("ipahealthcheck.ds.replication.ReplicationChangelogCheck", "0.6"),
    ("ipahealthcheck.ds.replication.ReplicationCheck", "0.6"),
    ("ipahealthcheck.ds.replication.ReplicationConflictCheck", "0.2"),
    ("ipahealthcheck.ds.ruv.KnownRUVCheck", "0.6"),
    ("ipahealthcheck.ds.ruv.RUVCheck", "0.4"),
    ("ipahealthcheck.ipa.certs.CertmongerFIPSTokensCheck", "0.19"),
    ("ipahealthcheck.ipa.certs.CertmongerStuckCheck", "0.13"),
    ("ipahealthcheck.ipa.certs.IPACAChainExpirationCheck", "0.4"),
    ("ipahealthcheck.ipa.certs.IPACertDNSSAN", "0.7"),
    ("ipahealthcheck.ipa.certs.IPACertMatchCheck", "0.9"),
    ("ipahealthcheck.ipa.certs.IPACertNSSTrust", "0.2"),
    ("ipahealthcheck.ipa.certs.IPACertRevocation", "0.2"),
    ("ipahealthcheck.ipa.certs.IPACertTracking", "0.2"),
    ("ipahealthcheck.ipa.certs.IPACertfileExpirationCheck", "0.2"),
    ("ipahealthcheck.ipa.certs.IPACertmongerCA", "0.2"),
    ("ipahealthcheck.ipa.certs.IPACertmongerExpirationCheck", "0.2"),
    ("ipahealthcheck.ipa.certs.IPADogtagCertsMatchCheck", "0.9"),
    ("ipahealthcheck.ipa.certs.IPAKRAAgent", "0.9"),
    ("ipahealthcheck.ipa.certs.IPANSSChainValidation", "0.2"),
    ("ipahealthcheck.ipa.certs.IPAOpenSSLChainValidation", "0.2"),
    ("ipahealthcheck.ipa.certs.IPARAAgent", "0.2"),
    ("ipahealthcheck.ipa.certs.IPAUserProvidedExpirationCheck", "0.18"),
    ("ipahealthcheck.ipa.config.IPAkrbLastSuccessfulAuth", "0.18"),
    ("ipahealthcheck.ipa.config.SSSDAllowedUids389Check", "0.19"),
    ("ipahealthcheck.ipa.dna.IPADNARangeCheck", "0.3"),
    ("ipahealthcheck.ipa.files.IPAFileCheck", "0.2"),
    ("ipahealthcheck.ipa.files.IPAFileNSSDBCheck", "0.2"),
    ("ipahealthcheck.ipa.files.TomcatFileCheck", "0.2"),
    ("ipahealthcheck.ipa.host.DNSKeytab", "0.15"),
    ("ipahealthcheck.ipa.host.DNS_keysyncKeytab", "0.15"),
    ("ipahealthcheck.ipa.host.DSKeytab", "0.15"),
    ("ipahealthcheck.ipa.host.HTTPKeytab", "0.15"),
    ("ipahealthcheck.ipa.host.IPAHostKeytab", "0.2"),
    ("ipahealthcheck.ipa.host.ODS_EXPORTERKeytab", "0.15"),
    ("ipahealthcheck.ipa.idns.IPADNSSystemRecordsCheck", "0.4"),
    ("ipahealthcheck.ipa.kdc.KDCWorkersCheck", "0.11"),
    ("ipahealthcheck.ipa.meta.IPAMetaCheck", "0.6"),
    ("ipahealthcheck.ipa.nss.IPAGroupMemberCheck", "0.10"),
    ("ipahealthcheck.ipa.proxy.IPAProxySecretCheck", "0.10"),
    ("ipahealthcheck.ipa.roles.IPACRLManagerCheck", "0.3"),
    ("ipahealthcheck.ipa.roles.IPARenewalMasterCheck", "0.3"),
    ("ipahealthcheck.ipa.roles.IPARenewalMasterHasKRACheck", "0.13"),
    ("ipahealthcheck.ipa.topology.IPATopologyDomainCheck", "0.2"),
    ("ipahealthcheck.ipa.trust.IPADomainCheck", "0.4"),
    ("ipahealthcheck.ipa.trust.IPATrustAgentCheck", "0.2"),
    ("ipahealthcheck.ipa.trust.IPATrustAgentMemberCheck", "0.2"),
    ("ipahealthcheck.ipa.trust.IPATrustCatalogCheck", "0.2"),
    ("ipahealthcheck.ipa.trust.IPATrustControllerAdminSIDCheck", "0.7"),
    ("ipahealthcheck.ipa.trust.IPATrustControllerConfCheck", "0.2"),
    ("ipahealthcheck.ipa.trust.IPATrustControllerGroupSIDCheck", "0.2"),
    ("ipahealthcheck.ipa.trust.IPATrustControllerPrincipalCheck", "0.2"),
    ("ipahealthcheck.ipa.trust.IPATrustControllerServiceCheck", "0.2"),
    ("ipahealthcheck.ipa.trust.IPATrustDomainsCheck", "0.2"),
    ("ipahealthcheck.ipa.trust.IPATrustPackageCheck", "0.3"),
    ("ipahealthcheck.ipa.trust.IPAauthzdatapacCheck", "0.18"),
    ("ipahealthcheck.ipa.trust.IPAsidgenpluginCheck", "0.2"),
    ("ipahealthcheck.meta.core.MetaCheck", "0.2"),
    ("ipahealthcheck.meta.services.certmonger", "0.2"),
    ("ipahealthcheck.meta.services.chronyd", "0.13"),
    ("ipahealthcheck.meta.services.dirsrv", "0.2"),
    ("ipahealthcheck.meta.services.gssproxy", "0.2"),
    ("ipahealthcheck.meta.services.httpd", "0.2"),
    ("ipahealthcheck.meta.services.ipa_custodia", "0.3"),
    ("ipahealthcheck.meta.services.ipa_dnskeysyncd", "0.3"),
    ("ipahealthcheck.meta.services.ipa_ods_exporter", "0.13"),
    ("ipahealthcheck.meta.services.ipa_otpd", "0.3"),
    ("ipahealthcheck.meta.services.kadmin", "0.3"),
    ("ipahealthcheck.meta.services.krb5kdc", "0.2"),
    ("ipahealthcheck.meta.services.named", "0.2"),
    ("ipahealthcheck.meta.services.ods_enforcerd", "0.13"),
    ("ipahealthcheck.meta.services.pki_tomcatd", "0.2"),
    ("ipahealthcheck.meta.services.smb", "0.13"),
    ("ipahealthcheck.meta.services.sssd", "0.3"),
    ("ipahealthcheck.meta.services.winbind", "0.13"),
    ("ipahealthcheck.system.filesystemspace.FileSystemSpaceCheck", "0.2")]

end IpaDiagnose
